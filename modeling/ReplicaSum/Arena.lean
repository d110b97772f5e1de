import ReplicaSum.ReduceError

/-!
# Arenas

An arena is the scratch memory of a rank, reserved before the reduction begins. It is reserved
for any block length; whether it can be used shows when the scratch memory is taken from it.
-/

namespace ReplicaSum

/-- The number of bytes of a record. -/
def recordBytes : Nat := 4 * (nFields * nLanes)

/-- The number of bytes of a wide record. -/
def wideRecordBytes : Nat := 8 * (nFields * nLanes)

/-- The buffers of a rank. -/
structure Arena where
  staged : Array Record
  sum : BlockSum
  out : Array Record
  blockLen : Nat

namespace Arena

/-- A buffer of `len` copies of a value that takes `bytes` bytes, if the memory is granted. -/
def reserve {α : Type} (grants : ScratchPart → Nat → Bool) (part : ScratchPart) (len bytes : Nat)
    (a : α) : Except ReduceError (Array α) :=
  if grants part (len * bytes) then .ok (Array.replicate len a)
  else .error (.memory part (len * bytes))

/-- Reserve the buffers for blocks of `blockLen` records. -/
def new (grants : ScratchPart → Nat → Bool) (blockLen : Nat) : Except ReduceError Arena := do
  let staged ← reserve grants .staged (stagedLen blockLen) recordBytes Lanes.zero
  let sum ← reserve grants .sum blockLen wideRecordBytes Lanes.wideZero
  let out ← reserve grants .out blockLen recordBytes Lanes.zero
  return { staged, sum, out, blockLen }

/-- The number of bytes that an arena holds. -/
def nBytes (a : Arena) : Nat :=
  (a.staged.size + a.out.size) * recordBytes + a.sum.size * wideRecordBytes

/-- The scratch memory that an arena offers. -/
def scratch (a : Arena) : Except ReduceError Scratch :=
  match Scratch.ofBuffers a.staged a.sum a.out a.blockLen with
  | .ok s => .ok s
  | .error cause => .error (.layout (.scratch cause))

end Arena

end ReplicaSum
