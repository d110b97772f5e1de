import ReplicaSum.TransferError

/-!
# Tag slots

One slot for each tag, holding what belongs to the transfer in flight under that tag. A slot
is filled when a transfer begins and emptied when it is collected, so that no tag ever has two
transfers in flight.
-/

namespace ReplicaSum

/-- What is in flight under each tag. -/
structure TagSlots (α : Type) where
  slots : Vector (Option α) maxTags

namespace TagSlots

variable {α : Type}

/-- Nothing is in flight. -/
def empty : TagSlots α := ⟨Vector.replicate maxTags none⟩

/-- What is in flight under a tag. -/
def get? (s : TagSlots α) (t : Tag) : Option α := s.slots[t.index]

/-- The slots with the slot of one tag replaced. -/
def set (s : TagSlots α) (t : Tag) (a : Option α) : TagSlots α := ⟨s.slots.set t.index a⟩

/-- Whether a transfer is in flight under a tag. -/
def isPending (s : TagSlots α) (t : Tag) : Bool := (s.get? t).isSome

/-- Fill the slot of a tag, which has to be free. -/
def issue (s : TagSlots α) (t : Tag) (a : α) : Except TransferError (TagSlots α) :=
  if s.isPending t then .error (.tagBusy t) else .ok (s.set t (some a))

/-- Empty the slot of a tag and hand out what it held. -/
def take (s : TagSlots α) (t : Tag) : Option α × TagSlots α := (s.get? t, s.set t none)

/-- The tags with a transfer in flight, in increasing order. -/
def pending (s : TagSlots α) : List Tag := Tag.all.filter s.isPending

/-- The number of transfers in flight. -/
def nPending (s : TagSlots α) : Nat := s.pending.length

@[simp]
theorem get?_empty (t : Tag) :
  (empty : TagSlots α).get? t = none
  := by
  simp [empty, get?]

@[simp]
theorem get?_set (s : TagSlots α) (t u : Tag) (a : Option α) :
  (s.set t a).get? u = if t = u then a else s.get? u
  := by
  obtain ⟨⟨i, hi⟩⟩ := t
  obtain ⟨⟨j, hj⟩⟩ := u
  simp [get?, set, Vector.getElem_set]

/-- Slots that hold the same under every tag are the same. -/
theorem ext {s s' : TagSlots α} (h : ∀ t, s.get? t = s'.get? t) :
  s = s'
  := by
  obtain ⟨v⟩ := s
  obtain ⟨v'⟩ := s'
  congr 1
  apply Vector.ext
  intro i hi
  exact h ⟨⟨i, hi⟩⟩

/-- Of two values for the same slot, the later one counts. -/
@[simp]
theorem set_set (s : TagSlots α) (t : Tag) (a b : Option α) :
  (s.set t a).set t b = s.set t b
  := by
  apply ext
  intro u
  rw [get?_set, get?_set, get?_set]
  split <;> rfl

/-- A slot that is filled with what it holds does not change. -/
theorem set_of_get? {s : TagSlots α} {t : Tag} {a : Option α} (h : s.get? t = a) :
  s.set t a = s
  := by
  apply ext
  intro u
  rw [get?_set]
  split
  · rename_i htu
    rw [← htu, h]
  · rfl

/-- Emptying a slot that is empty changes nothing. -/
theorem set_none {s : TagSlots α} {t : Tag} (h : s.get? t = none) :
  s.set t none = s
  := set_of_get? h

theorem get?_eq_none {s : TagSlots α} {t : Tag} (h : s.isPending t = false) :
  s.get? t = none
  := Option.isNone_iff_eq_none.mp (Option.isSome_eq_false_iff.mp h)

theorem issue_eq_ok {s : TagSlots α} {t : Tag} (h : s.get? t = none) (a : α) :
  s.issue t a = .ok (s.set t (some a))
  := by
  simp [issue, isPending, h]

theorem mem_pending {s : TagSlots α} {t : Tag} :
  t ∈ s.pending ↔ s.isPending t = true
  := by
  simp [pending, Tag.all]

end TagSlots

end ReplicaSum
