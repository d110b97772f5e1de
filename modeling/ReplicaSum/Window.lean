import ReplicaSum.Storage

/-!
# Windows

A window is the part of the data that a single rank may touch: its own records of every array.
All arrays can be read through it, and array `0`, where the result goes, can be written. A
request is checked before any record is touched.

A window takes the place of the storage of its rank. It has no stretches: it knows how far apart the
arrays start, and finds their records by that.
-/

namespace ReplicaSum

/-- The records `owned` of each of `nArray` arrays that start `stride` records apart. -/
structure Window where
  owned : Span
  nArray : Nat
  stride : Nat
deriving DecidableEq, Repr

/-- The window on the records that a view shows. -/
def View.window (v : View) : Window := ⟨v.owned, v.nArray, v.stride⟩

/-- The window in place of the storage of a view, if the view has a storage. -/
def View.openWindow (v : View) : Except (Failure LayoutError) Window := do
  let s ← v.rankStorage
  return { owned := s.owned, nArray := s.nArray, stride := v.stride }

namespace Window

/-- The position in the slice of record `i` of array `a`. -/
def address (w : Window) (a i : Nat) : Nat := a * w.stride + i

/-- Check a transfer between the window and a buffer with room for `capacity` records. -/
def check (w : Window) (records : Span) (capacity : Nat) : Except TransferError Unit :=
  if records.isEmpty ∨ capacity < records.length then
    .error (.misaligned records.length capacity)
  else if records.start < w.owned.start ∨ w.owned.stop < records.stop then
    .error (.outOfRange records w.owned)
  else .ok ()

/-- The records of an array, laid over the front of a buffer. -/
def load (w : Window) (data : Data) (array : Nat) (records : Span) (dst : Array Record) :
    Array Record :=
  overwrite dst 0 (data.extract (w.address array records.start) (w.address array records.stop))

/-- The data with the front of a buffer laid over records of array `0`. -/
def store (w : Window) (data : Data) (records : Span) (src : Array Record) : Data :=
  overwrite data (w.address 0 records.start) (src.take records.length)

/-- Copy records of an array into the front of a buffer. -/
def read (w : Window) (data : Data) (array : Nat) (records : Span) (dst : Array Record) :
    Except TransferError (Array Record) := do
  if w.nArray ≤ array then throw (.unknownArray array)
  w.check records dst.size
  return w.load data array records dst

/-- Copy the front of a buffer into records of array `0`. -/
def write (w : Window) (data : Data) (records : Span) (src : Array Record) :
    Except TransferError Data := do
  w.check records src.size
  return w.store data records src

end Window

end ReplicaSum
