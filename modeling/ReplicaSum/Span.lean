/-!
# Spans

A span is a half-open range of natural numbers: record indices, or byte positions in a text.
A span may be inverted; it then covers nothing and has length `0`.
-/

namespace ReplicaSum

/-- The half-open range from `start` up to, but not including, `stop`. -/
structure Span where
  start : Nat
  stop : Nat
deriving DecidableEq, Repr, Inhabited

namespace Span

/-- The number of members of a span. -/
def length (s : Span) : Nat := s.stop - s.start

/-- A span is empty when it has no member; an inverted span is. -/
def isEmpty (s : Span) : Bool := s.stop ≤ s.start

instance : Membership Nat Span where
  mem s i := s.start ≤ i ∧ i < s.stop

instance (i : Nat) (s : Span) : Decidable (i ∈ s) :=
  inferInstanceAs (Decidable (s.start ≤ i ∧ i < s.stop))

theorem mem_iff {i : Nat} {s : Span} :
  i ∈ s ↔ s.start ≤ i ∧ i < s.stop
  := Iff.rfl

/-- The span moved up by `n`. -/
def shift (s : Span) (n : Nat) : Span := ⟨s.start + n, s.stop + n⟩

/-- The text of a span, `start..stop`. -/
def text (s : Span) : String := s!"{s.start}..{s.stop}"

theorem isEmpty_iff {s : Span} :
  s.isEmpty = true ↔ s.length = 0
  := by
  simp [isEmpty, length]
  omega

theorem not_mem_of_isEmpty {s : Span} (h : s.isEmpty = true) (i : Nat) :
  i ∉ s
  := by
  simp [isEmpty] at h
  rw [mem_iff]
  omega

@[simp]
theorem length_shift (s : Span) (n : Nat) :
  (s.shift n).length = s.length
  := by
  simp only [shift, length]
  omega

end Span

end ReplicaSum
