import ReplicaSum.Span
import ReplicaSum.Failure

/-!
# Blocks

A span is walked in consecutive blocks of a fixed length; only the last one may be shorter.
A value of type `Blocks` stands between two blocks of such a walk.
-/

namespace ReplicaSum

/-- The blocks still to come: those of `next..stop`, each of length `blockLen`. -/
structure Blocks where
  next : Nat
  stop : Nat
  blockLen : Nat
  blockLen_pos : 0 < blockLen

/-- The blocks of a span. -/
def Span.blocks (s : Span) (blockLen : Nat) (h : 0 < blockLen) : Blocks :=
  ⟨s.start, s.stop, blockLen, h⟩

/-- The blocks of a span, once the block length has been checked. -/
def Span.blocks? (s : Span) (blockLen : Nat) : Except Violation Blocks :=
  if h : 0 < blockLen then .ok (s.blocks blockLen h) else .error .blockLenZero

namespace Blocks

/-- The next block, and the walk behind it. -/
def next? (b : Blocks) : Option (Span × Blocks) :=
  if b.next < b.stop then
    let edge := min b.stop (b.next + b.blockLen)
    some (⟨b.next, edge⟩, { b with next := edge })
  else none

theorem next?_decreases {b rest : Blocks} {s : Span} (h : b.next? = some (s, rest)) :
  rest.stop - rest.next < b.stop - b.next
  := by
  have := b.blockLen_pos
  simp only [next?, Option.ite_none_right_eq_some, Option.some.injEq, Prod.mk.injEq] at h
  obtain ⟨hlt, -, rfl⟩ := h
  simp only
  omega

/-- The number of blocks still to come. -/
def length (b : Blocks) : Nat := (b.stop - b.next + (b.blockLen - 1)) / b.blockLen

/-- The blocks still to come, in order. -/
def toList (b : Blocks) : List Span :=
  match _h : b.next? with
  | none => []
  | some (s, rest) => s :: rest.toList
termination_by b.stop - b.next
decreasing_by exact next?_decreases ‹_›

/-- Go through the blocks still to come, in order, and accumulate. -/
def foldl {α : Type} (f : α → Span → α) (init : α) (b : Blocks) : α :=
  match _h : b.next? with
  | none => init
  | some (s, rest) => rest.foldl f (f init s)
termination_by b.stop - b.next
decreasing_by exact next?_decreases ‹_›

/-- The number of blocks still to come, found by going through them. -/
def count (b : Blocks) : Nat := b.foldl (fun n _ => n + 1) 0

/-- The last of the blocks still to come. -/
def last? (b : Blocks) : Option Span := b.foldl (fun _ s => some s) none

/-- Pass over `k` blocks and take the one behind them. When there are not enough blocks, the
walk ends. -/
def nth : Nat → Blocks → Option Span × Blocks
  | k, b =>
    match b.next?, k with
    | none, _ => (none, b)
    | some (s, rest), 0 => (some s, rest)
    | some (_, rest), k + 1 => nth k rest

theorem toList_eq_nil {b : Blocks} (h : b.next? = none) :
  b.toList = []
  := by
  rw [toList]
  split
  · rfl
  · simp_all

theorem toList_eq_cons {b rest : Blocks} {s : Span} (h : b.next? = some (s, rest)) :
  b.toList = s :: rest.toList
  := by
  rw [toList]
  split
  · simp_all
  · rename_i h'
    rw [h] at h'
    cases h'
    rfl

end Blocks

end ReplicaSum
