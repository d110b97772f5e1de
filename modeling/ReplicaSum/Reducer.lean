import ReplicaSum.Blocks
import ReplicaSum.Scratch
import ReplicaSum.Session

/-!
# The block reducer

A rank goes through its records one block at a time. Array `0` seeds the running sum of a
block, the other arrays are added in increasing order, and the rounded sum is written over
array `0`.

Three kinds of work overlap: fetching the next block of an array, which begins as soon as its
current block has been consumed; the arithmetic; and storing the previous block, which is
waited for only before its buffer is needed again. The reducer is a session, so it says
which calls it makes and depends on nothing but the replies.

A buffer lies in a slot of the rank while the rank doesn't need it, and is in the hands of the
engine while a transfer is in flight. The reducer fails if it doesn't find a buffer where it looks
for it. -/

namespace ReplicaSum

/-- The work done by a rank. -/
structure RankReport where
  range : Span
  nBlock : Nat
  nRecord : Nat
deriving DecidableEq, Repr

/-- The report of a rank that has done nothing yet. -/
def RankReport.empty (range : Span) : RankReport := ⟨range, 0, 0⟩

/-- The report with one more block of `len` records. -/
def RankReport.addBlock (report : RankReport) (len : Nat) : RankReport :=
  { report with nBlock := report.nBlock + 1, nRecord := report.nRecord + len }

/-- The ways in which the reducer fails. -/
inductive RankError where
  /-- There are too few arrays to combine, or too many. -/
  | arrayCount (nArray : Nat)
  /-- A transfer failed. -/
  | transfer (cause : TransferError)
deriving DecidableEq, Repr

/-- The sentence that describes an error of the reducer. -/
def RankError.message : RankError → String
  | .arrayCount nArray =>
    s!"can't reduce {nArray} arrays, the count must lie between 2 and {maxArray}"
  | .transfer cause => cause.message

/-- What a rank does: a session that may end early. -/
abbrev RankM := ExceptT (Failure RankError) Session

namespace RankM

/-- End early with an error of a transfer. -/
def refuse {α : Type} (cause : TransferError) : RankM α :=
  throw (.error (.transfer cause))

/-- Make a call, and end early if it is answered with an error. -/
def ask {α : Type} (session : Session (Except TransferError α)) : RankM α :=
  ExceptT.mk (Except.mapError (fun cause => .error (.transfer cause)) <$> session)

/-- Begin to fetch records of an array into a buffer. -/
def beginGet (tag : Tag) (array : Nat) (records : Span) (buffer : Buffer) : RankM Unit :=
  ask (Session.request (.submit tag (.get array records buffer)))

/-- Begin to store the front of a buffer. -/
def beginPut (tag : Tag) (records : Span) (buffer : Buffer) : RankM Unit :=
  ask (Session.request (.submit tag (.put records buffer)))

/-- Wait for the transfer under a tag. -/
def wait (tag : Tag) : RankM (Option Buffer) := ask (Session.request (.wait tag))

/-- Wait for every transfer. -/
def finish : RankM Unit := ask (Session.request .finish)

/-- Insist that the buffer that goes with a tag is in its slot. -/
def insistHeld (tag : Tag) (buffer : Option Buffer) : RankM Buffer :=
  match buffer with
  | some buffer => return buffer
  | none => refuse (.tagBusy tag)

/-- Insist that a transfer was in flight under a tag. -/
def insistPending (tag : Tag) (buffer : Option Buffer) : RankM Buffer :=
  match buffer with
  | some buffer => return buffer
  | none => refuse (.notPending tag)

/-- Insist on a precondition. -/
def insist {α : Type} (result : Except Violation α) : RankM α :=
  match result with
  | .ok a => return a
  | .error cause => throw (.violation cause)

end RankM

/-- The first `len` records of a buffer, which has to have that many. -/
def Buffer.front (buffer : Buffer) (len : Nat) : Except Violation (Array Record) :=
  if buffer.records.size < len then .error .bufferTooShort else .ok (buffer.records.take len)

/-- A buffer with the front of the sum rounded into its first `len` records. -/
def Buffer.fill (buffer : Buffer) (sum : BlockSum) (len : Nat) : Except Violation Buffer :=
  if buffer.records.size < len then .error .bufferTooShort
  else do
    let rounded ← sum.demote len
    return { buffer with records := overwrite buffer.records 0 rounded }

/-- The buffers that a rank holds: there is a slot for each array and one for the outgoing block. A
slot is empty while its buffer is away. -/
structure Slots where
  staged : Vector (Option Buffer) maxArray
  out : Option Buffer

namespace Slots

/-- The buffers of a rank that reduces `nArray` arrays. The incoming records are cut into whole
blocks, and the arrays get one each as long as there is one. -/
def carve (scratch : Scratch) (nArray : Nat) : Slots where
  staged := Vector.ofFn fun a =>
    if a.val < nArray ∧ (a.val + 1) * scratch.blockLen ≤ scratch.staged.size then
      some (scratch.stagedBuffer a)
    else none
  out := some scratch.outBuffer

/-- What the slot of an array holds. -/
def get (slots : Slots) (a : Fin maxArray) : Option Buffer := getElem slots.staged a.val a.isLt

/-- Take the buffer of an array out of its slot. -/
def take (slots : Slots) (a : Fin maxArray) : Option Buffer × Slots :=
  (slots.get a, { slots with staged := slots.staged.set a none a.isLt })

/-- Put the buffer of an array back into its slot. -/
def put (slots : Slots) (a : Fin maxArray) (buffer : Buffer) : Slots :=
  { slots with staged := slots.staged.set a (some buffer) a.isLt }

end Slots

namespace Reducer

/-- The arrays that take part when `nArray` arrays are reduced. -/
def arrays (nArray : Nat) : List (Fin maxArray) := (List.finRange maxArray).take nArray

/-- Begin to fetch the first block of every array into the buffer in its slot. -/
def prime (first : Span) : List (Fin maxArray) → Slots → RankM Slots
  | [], slots => return slots
  | a :: rest, slots => do
    let (held, slots) := slots.take a
    let buffer ← RankM.insistHeld (.input a) held
    RankM.beginGet (.input a) a first buffer
    prime first rest slots

/-- Put a block of array `a` into the running sum: array `0` seeds it, the others are added. -/
def absorb (a : Fin maxArray) (block : Array Record) (sum : BlockSum) :
    Except Violation BlockSum :=
  if a = 0 then sum.promote block else sum.accumulate block

/-- Begin to fetch the next block of array `a` into the buffer of its last one. If there is no next
block, put the buffer back into its slot. -/
def refill (a : Fin maxArray) (next : Option Span) (buffer : Buffer) (slots : Slots) :
    RankM Slots := do
  match next with
  | some records =>
    RankM.beginGet (.input a) a records buffer
    return slots
  | none => return slots.put a buffer

/-- Take the current block, of `len` records, of each array into the running sum, and refill the
buffer of that array at once. -/
def consume (len : Nat) (next : Option Span) :
    List (Fin maxArray) → BlockSum → Slots → RankM (BlockSum × Slots)
  | [], sum, slots => return (sum, slots)
  | a :: rest, sum, slots => do
    let buffer ← RankM.insistPending (.input a) (← RankM.wait (.input a))
    let block ← RankM.insist (buffer.front len)
    let sum ← RankM.insist (absorb a block sum)
    let slots ← refill a next buffer slots
    consume len next rest sum slots

/-- The buffer for the outgoing block, and the spare one afterwards: the buffer that the wait
under the outgoing tag gave back or else, at the first block, the spare one. -/
def chooseOut (returned spare : Option Buffer) : Option Buffer × Option Buffer :=
  match returned with
  | some buffer => (some buffer, spare)
  | none => (spare, none)

/-- Round the running sum of a block and begin to store it. -/
def emit (tag : Tag) (records : Span) (sum : BlockSum) (slots : Slots) : RankM Slots := do
  let (chosen, spare) := chooseOut (← RankM.wait tag) slots.out
  let buffer ← RankM.insistPending tag chosen
  let filled ← RankM.insist (buffer.fill sum records.length)
  RankM.beginPut tag records filled
  return { slots with out := spare }

/-- Reduce blocks whose first one has already been asked for. -/
def reduceBlocks (arrays : List (Fin maxArray)) (outTag : Tag) :
    List Span → BlockSum → Slots → RankReport → RankM RankReport
  | [], _, _, report => return report
  | records :: rest, sum, slots, report => do
    let (sum, slots) ← consume records.length rest.head? arrays sum slots
    let slots ← emit outTag records sum slots
    reduceBlocks arrays outTag rest sum slots (report.addBlock records.length)

/-- Ask for the first of the blocks, and reduce all of them. -/
def reduceAll (arrays : List (Fin maxArray)) (outTag : Tag) (blocks : List Span) (sum : BlockSum)
    (slots : Slots) (report : RankReport) : RankM RankReport :=
  match blocks with
  | [] => return report
  | first :: rest => do
    let slots ← prime first arrays slots
    reduceBlocks arrays outTag (first :: rest) sum slots report

end Reducer

/-- Reduce the first `nArray` arrays over the records of `range`. The last block may still be on
its way when this ends; `RankM.finish` waits for it. Nothing is asked for when `range` is
empty. -/
def reduceRank (range : Span) (nArray : Nat) (scratch : Scratch) : RankM RankReport :=
  if h : 2 ≤ nArray ∧ nArray ≤ maxArray then
    Reducer.reduceAll (Reducer.arrays nArray) (.output ⟨nArray, Nat.lt_succ_of_le h.2⟩)
      (range.blocks scratch.blockLen scratch.isBlockLen.1).toList scratch.sum
      (.carve scratch nArray) (.empty range)
  else throw (.error (.arrayCount nArray))

end ReplicaSum
