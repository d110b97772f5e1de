import ReplicaSum.Overwrite
import ReplicaSum.TransferError
import ReplicaSum.View

/-!
# Rank storages

A rank storage holds the stretch of a slice that a view shows of each array. Array `0` is held apart
from the others, since it alone is written. Calls name records by their global indices, which are
counted from the start of a stretch before any record is touched. All arithmetic here is that of
counts, and every stretch is cut out with a look at its bounds: what has no result is a `Trap`.
-/

namespace ReplicaSum

/-- The steps of a storage that have no result. -/
inductive Trap where
  /-- The difference of two counts is below zero. -/
  | belowZero
  /-- A stretch ends beyond the records it is cut out of, or before it starts. -/
  | outOfBounds
  /-- There is no stretch for the array. -/
  | noStretch
  /-- Records are copied over a stretch of another length. -/
  | lengthMismatch
deriving DecidableEq, Repr

/-- Why a call to a storage isn't carried out. -/
inductive Halt where
  /-- The call is refused. -/
  | refused (cause : TransferError)
  /-- The call breaks off. -/
  | trapped (cause : Trap)
deriving DecidableEq, Repr

/-- The difference of two counts. -/
def countFrom (start n : Nat) : Except Halt Nat :=
  if start ≤ n then .ok (n - start) else .error (.trapped .belowZero)

/-- The stretch of `len` records that a span describes. -/
def Span.bounded (s : Span) (len : Nat) : Except Halt Span :=
  if s.start ≤ s.stop ∧ s.stop ≤ len then .ok s else .error (.trapped .outOfBounds)

/-- The part of the stretch `s` that a span describes from the start of the stretch on. -/
def Span.cutOut (s part : Span) : Except Halt Span := do
  return (← part.bounded s.length).shift s.start

/-- The records of a stretch. -/
def recordsAt (data : Data) (s : Span) : Except Halt (Array Record) := do
  let s ← s.bounded data.size
  return data.extract s.start s.stop

/-- Copy records over a stretch. -/
def copyOver (dst : Array Record) (s : Span) (src : Array Record) : Except Halt (Array Record) := do
  let s ← s.bounded dst.size
  if s.length = src.size then return overwrite dst s.start src
  else throw (.trapped .lengthMismatch)

/-- The stretches of a slice that a rank may touch. -/
structure Storage where
  owned : Span
  nArray : Nat
  /-- The stretch of array `0`. -/
  out : Span
  /-- The stretches of the other arrays. The one at `0` is never used. -/
  inputs : Vector Span maxArray

/-! ### Making storages -/

/-- The records of one array: `length` of them, `step` apart, the first one at position `start`. -/
structure Row where
  start : Nat
  length : Nat
  step : Nat

/-- The stretch that the records of a row make up, which have to lie side by side. -/
def Row.stretch (r : Row) : Except (Failure LayoutError) Span :=
  if r.length ≤ 1 ∨ r.step = 1 then .ok ⟨r.start, r.start + r.length⟩
  else .error (.error .notContiguous)

/-- What is left of a view from a row on: `nRow` rows that start `stride` records apart. -/
structure Rows where
  nRow : Nat
  stride : Nat
  head : Row

/-- All rows of a view. -/
def View.rows (v : View) : Rows where
  nRow := v.nArray
  stride := v.stride
  head := ⟨v.address 0 0, v.nRecord, v.step⟩

namespace Rows

/-- The rows behind the first one. -/
def tail (r : Rows) : Rows where
  nRow := r.nRow - 1
  stride := r.stride
  head := ⟨r.head.start + r.stride, r.head.length, r.head.step⟩

/-- Part the first row from those behind it. -/
def splitHead (r : Rows) : Except (Failure LayoutError) (Row × Rows) :=
  if 0 < r.nRow then .ok (r.head, r.tail) else .error (.violation .arrayOutOfRange)

/-- The stretches of the rows, which belong to the given arrays in order. -/
def stretches (r : Rows) : List (Fin maxArray) → Vector Span maxArray →
    Except (Failure LayoutError) (Vector Span maxArray)
  | [], inputs => .ok inputs
  | a :: rest, inputs => do
    let (head, tail) ← r.splitHead
    let s ← head.stretch
    tail.stretches rest (inputs.set a s a.isLt)

end Rows

/-- The storage of the records that a view shows. The view is taken apart into its rows. -/
def View.rankStorage (v : View) : Except (Failure LayoutError) Storage := do
  let (head, tail) ← v.rows.splitHead
  let out ← head.stretch
  let inputs ← tail.stretches (((List.finRange maxArray).take v.nArray).drop 1)
    (Vector.replicate maxArray ⟨0, 0⟩)
  return { owned := v.owned, nArray := v.nArray, out, inputs }

/-! ### Accesses -/

namespace Storage

/-- The span of owned records, counted from the first owned record. -/
def localSpan (s : Storage) (records : Span) (capacity : Nat) : Except Halt Span :=
  if records.isEmpty ∨ capacity < records.length then
    .error (.refused (.misaligned records.length capacity))
  else if records.start < s.owned.start ∨ s.owned.stop < records.stop then
    .error (.refused (.outOfRange records s.owned))
  else do
    return ⟨← countFrom s.owned.start records.start, ← countFrom s.owned.start records.stop⟩

/-- The stretch of an array. -/
def stretch (s : Storage) (array : Nat) : Except Halt Span :=
  if array = 0 then .ok s.out
  else
    match s.inputs[array]? with
    | some input => .ok input
    | none => .error (.trapped .noStretch)

/-- Copy records of an array into the front of a buffer. -/
def read (s : Storage) (data : Data) (array : Nat) (records : Span) (dst : Array Record) :
    Except Halt (Array Record) := do
  if s.nArray ≤ array then throw (.refused (.unknownArray array))
  let here ← s.localSpan records dst.size
  let src ← recordsAt data (← (← s.stretch array).cutOut here)
  copyOver dst ⟨0, src.size⟩ src

/-- Copy the front of a buffer into records of array `0`. -/
def write (s : Storage) (data : Data) (records : Span) (src : Array Record) :
    Except Halt Data := do
  let here ← s.localSpan records src.size
  let place ← s.out.cutOut here
  copyOver data place (← recordsAt src ⟨0, here.length⟩)

end Storage

/-- A call to a storage, with the buffer that it is given. -/
inductive Access where
  | read (array : Nat) (records : Span) (dst : Array Record)
  | write (records : Span) (src : Array Record)

/-- What comes of a call: the reply and the buffer afterwards. -/
structure Answer where
  reply : Except Halt Unit
  buffer : Array Record

namespace Storage

/-- Make a call. A copy is the last step of a call, so nothing is changed if there is none. -/
def access (s : Storage) (data : Data) : Access → Answer × Data
  | .read array records dst =>
    match s.read data array records dst with
    | .ok filled => (⟨.ok (), filled⟩, data)
    | .error halt => (⟨.error halt, dst⟩, data)
  | .write records src =>
    match s.write data records src with
    | .ok stored => (⟨.ok (), src⟩, stored)
    | .error halt => (⟨.error halt, src⟩, data)

/-- Make calls to storages of one slice, one after the other. -/
def accesses (data : Data) : List (Storage × Access) → List Answer × Data
  | [] => ([], data)
  | (s, call) :: rest =>
    let (answer, data) := s.access data call
    let (answers, data) := accesses data rest
    (answer :: answers, data)

end Storage

end ReplicaSum
