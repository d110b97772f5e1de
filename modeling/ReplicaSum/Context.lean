import ReplicaSum.Event
import ReplicaSum.ReduceError
import ReplicaSum.View

/-!
# Reduction contexts

A context describes a single reduction. It is checked when it is made, so that whatever uses it
can rely on its bounds. A context with fewer than two arrays is valid, but there is nothing
to combine.
-/

namespace ReplicaSum

/-- The reduction of the arrays of a layout in blocks of `blockLen` records. -/
structure Context where
  layout : Layout
  blockLen : Nat
  nArray_le : layout.nArray ≤ maxArray
  isBlockLen : IsBlockLen blockLen
  stride_le : layout.nArray ≤ 1 ∨ layout.nRecord ≤ layout.stride

namespace Context

/-- The context with the given layout and block length. -/
def withBlockLen (layout : Layout) (blockLen : Nat) : Except ReduceError Context :=
  if hn : layout.nArray ≤ maxArray then
    if hb : IsBlockLen blockLen then
      if hs : layout.nArray ≤ 1 ∨ layout.nRecord ≤ layout.stride then
        .ok ⟨layout, blockLen, hn, hb, hs⟩
      else .error (.layout .strideTooShort)
    else .error (.bounds .blockLen (signed blockLen) 1 maxBlockLen)
  else .error (.bounds .nArray (signed layout.nArray) 0 maxArray)

/-- The context with the given layout and the default block length. -/
def new (layout : Layout) : Except ReduceError Context := withBlockLen layout defaultBlockLen

/-- The context with the given layout and the block length of a configuration. -/
def ofConfig (layout : Layout) (config : Config) : Except ReduceError Context :=
  withBlockLen layout config.blockLen

/-- The number of records of each array. -/
def nRecord (c : Context) : Nat := c.layout.nRecord

/-- The number of arrays. -/
def nArray (c : Context) : Nat := c.layout.nArray

/-- Whether there is nothing to combine. -/
def isNoop (c : Context) : Bool := c.nArray < 2

/-- How the records are shared out among ranks. -/
def partition (c : Context) (nRank : Nat) : Partition := ⟨c.nRecord, c.blockLen, nRank⟩

/-- Check that `rank` is one of `nRank` ranks. -/
def checkRank (rank nRank : Nat) : Except ReduceError Unit :=
  if nRank = 0 then .error (.bounds .nPipeline 0 1 largestSigned)
  else if nRank ≤ rank then .error (.bounds .rank (signed rank) 0 (signed nRank - 1))
  else .ok ()

/-- The view of the arrays in a slice of `len` records. -/
def view (c : Context) (len : Nat) : Except ReduceError View :=
  match c.layout.requiredLen with
  | none => .error (.layout .strideTooLong)
  | some required =>
    if len < required then .error (.layout .sliceTooShort)
    else
      match View.ofLayout c.layout len with
      | .ok v => .ok v
      | .error cause => .error (.layout cause)

end Context

end ReplicaSum
