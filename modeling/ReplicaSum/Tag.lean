import ReplicaSum.Failure

/-!
# Transfer tags

Every transfer runs under a tag, and a tag has at most one transfer in flight. Tag `r` belongs
to the transfers that fetch array `r`; when `n` arrays are reduced, tag `n` belongs to those
that store the result. `TagSlots` keeps what belongs to the transfer in flight under each tag.
-/

namespace ReplicaSum

/-- The largest number of arrays that can be reduced at once. -/
abbrev maxArray : Nat := 11

/-- The number of tags: one for each array and one more for the result. -/
abbrev maxTags : Nat := maxArray + 1

/-- The name of a stream of transfers that are waited for together. -/
structure Tag where
  index : Fin maxTags
deriving DecidableEq, Repr

namespace Tag

/-- The tag of the transfers that fetch `array`. -/
def input (array : Fin maxArray) : Tag := ⟨array.castSucc⟩

/-- The tag of the transfers that store the result of reducing `nArray` arrays. -/
def output (nArray : Fin maxTags) : Tag := ⟨nArray⟩

/-- The tag of the transfers that fetch `array`, if there is one. -/
def input? (array : Nat) : Except Violation Tag :=
  if h : array < maxArray then .ok (input ⟨array, h⟩) else .error .tagOutOfRange

/-- The tag of the transfers that store the result of reducing `nArray` arrays, if there is
one. -/
def output? (nArray : Nat) : Except Violation Tag :=
  if h : nArray < maxTags then .ok (output ⟨nArray, h⟩) else .error .tagOutOfRange

/-- The name of a tag in messages. -/
def text (t : Tag) : String := s!"tag {t.index.val}"

@[simp]
theorem input_inj {a b : Fin maxArray} :
  input a = input b ↔ a = b
  := by
  simp [input, Fin.ext_iff]

/-- All tags, in increasing order. -/
def all : List Tag := (List.finRange maxTags).map Tag.mk

end Tag

end ReplicaSum
