import ReplicaSum.Layout
import ReplicaSum.Partition
import ReplicaSum.Record

/-!
# Views

A view shows the same stretch of records of every array of a layout. It knows where they are in
the slice but holds none of them, so that several views of one slice can be in use at once.
Record indices are global: splitting a view changes which records it shows and never what
they are called.
-/

namespace ReplicaSum

/-- A slice of records. -/
abbrev Data := Array Record

/-- The records `start..start + nRecord` of each of `nArray` arrays, which start `stride` records
apart and whose records are `step` apart. -/
structure View where
  nArray : Nat
  stride : Nat
  start : Nat
  nRecord : Nat
  step : Nat
deriving DecidableEq, Repr

namespace View

/-- The view of a whole layout in a slice of `len` records. -/
def ofLayout (l : Layout) (len : Nat) : Except LayoutError View :=
  match l.check len with
  | .ok () => .ok ⟨l.nArray, l.stride, 0, l.nRecord, 1⟩
  | .error cause => .error cause

/-- The records that a view shows of each array. -/
def owned (v : View) : Span := ⟨v.start, v.start + v.nRecord⟩

/-- The position in the slice of the `i`-th record that the view shows of array `a`. -/
def address (v : View) (a i : Nat) : Nat := a * v.stride + (v.start + i) * v.step

/-- The records that a view shows of array `a`. -/
def array (v : View) (data : Data) (a : Nat) : Except Violation (Array Record) :=
  if a < v.nArray then
    .ok ((Array.range v.nRecord).filterMap fun i => data[v.address a i]?)
  else .error .arrayOutOfRange

/-- Part a view into its first `len` records and the others. -/
def splitFront (v : View) (len : Nat) : Except Violation (View × View) :=
  if len ≤ v.nRecord then
    .ok ({ v with nRecord := len }, { v with start := v.start + len, nRecord := v.nRecord - len })
  else .error .splitOutOfRange

/-- The records of a view that `rank` owns when they are shared out among `nRank` ranks. -/
def selectRank (v : View) (blockLen rank nRank : Nat) : Except Violation View := do
  let share ← (Partition.mk v.nRecord blockLen nRank).owned? rank
  let (_, back) ← v.splitFront share.start
  let (mine, _) ← back.splitFront share.length
  return mine

/-- Cut spans of the given lengths off the front of a view, one after the other. -/
def cut (v : View) : List Span → Except Violation (List View)
  | [] => .ok []
  | s :: rest => do
    let (front, back) ← v.splitFront s.length
    return front :: (← back.cut rest)

/-- One view for each rank of a partition of the records of a view. -/
def splitRanks (v : View) (blockLen nRank : Nat) : Except Violation (List View) :=
  v.cut (Partition.mk v.nRecord blockLen nRank).shares

end View

end ReplicaSum
