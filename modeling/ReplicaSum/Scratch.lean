import ReplicaSum.BlockSum
import ReplicaSum.Layout
import ReplicaSum.Transfer

/-!
# Scratch memory

A rank works in three buffers: one for the blocks of each array as they come in, one for the
running sum of a block, and one for the block that goes out. Their sizes depend on the block
length alone.
-/

namespace ReplicaSum

/-- The block length of a reduction that doesn't ask for another one. -/
def defaultBlockLen : Nat := 32

/-- The largest block length; it bounds the scratch memory of a rank. -/
def maxBlockLen : Nat := 4096

/-- The block lengths that a rank can work with. -/
def IsBlockLen (blockLen : Nat) : Prop := 0 < blockLen ∧ blockLen ≤ maxBlockLen

instance (blockLen : Nat) : Decidable (IsBlockLen blockLen) :=
  inferInstanceAs (Decidable (0 < blockLen ∧ blockLen ≤ maxBlockLen))

/-- The number of incoming records that a rank has to have room for. -/
def stagedLen (blockLen : Nat) : Nat := maxArray * blockLen

/-- The scratch memory of a rank, for blocks of `blockLen` records. Its buffers may be longer
than they need to be. -/
structure Scratch where
  staged : Array Record
  sum : BlockSum
  out : Array Record
  blockLen : Nat
  isBlockLen : IsBlockLen blockLen
  staged_size : stagedLen blockLen ≤ staged.size
  sum_size : blockLen ≤ sum.size
  out_size : blockLen ≤ out.size

namespace Scratch

/-- Scratch memory made up of the given buffers. -/
def ofBuffers (staged : Array Record) (sum : BlockSum) (out : Array Record) (blockLen : Nat) :
    Except ScratchError Scratch :=
  if hb : IsBlockLen blockLen then
    if hs : stagedLen blockLen ≤ staged.size then
      if ho : blockLen ≤ sum.size ∧ blockLen ≤ out.size then
        .ok ⟨staged, sum, out, blockLen, hb, hs, ho.1, ho.2⟩
      else .error .sumOrOut
    else .error .staged
  else .error .blockLen

/-- Scratch memory that is all zero and no longer than it needs to be. -/
def blank (blockLen : Nat) (h : IsBlockLen blockLen) : Scratch where
  staged := Array.replicate (stagedLen blockLen) Lanes.zero
  sum := Array.replicate blockLen Lanes.wideZero
  out := Array.replicate blockLen Lanes.zero
  blockLen := blockLen
  isBlockLen := h
  staged_size := by simp
  sum_size := by simp
  out_size := by simp

/-- The buffer for the incoming blocks of an array. -/
def stagedBuffer (s : Scratch) (array : Fin maxArray) : Buffer where
  name := .staged array
  records := s.staged.extract (array * s.blockLen) ((array + 1) * s.blockLen)

/-- The buffer for the outgoing blocks. -/
def outBuffer (s : Scratch) : Buffer where
  name := .out
  records := s.out.take s.blockLen

theorem size_stagedBuffer (s : Scratch) (array : Fin maxArray) :
  (s.stagedBuffer array).records.size = s.blockLen
  := by
  have h := s.staged_size
  have : (array + 1) * s.blockLen ≤ maxArray * s.blockLen :=
    Nat.mul_le_mul_right _ array.isLt
  have : (array + 1) * s.blockLen = array * s.blockLen + s.blockLen := by
    rw [Nat.add_mul, Nat.one_mul]
  rw [stagedLen] at h
  simp only [stagedBuffer, Array.size_extract]
  omega

theorem size_outBuffer (s : Scratch) :
  s.outBuffer.records.size = s.blockLen
  := by
  have := s.out_size
  simp only [outBuffer, Array.take_eq_extract, Array.size_extract]
  omega

end Scratch

end ReplicaSum
