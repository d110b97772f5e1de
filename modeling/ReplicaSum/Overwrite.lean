/-!
# Overwriting a stretch of an array

`overwrite dst start src` lays the elements of `src` over those of `dst`, from position `start`
on. What would fall beyond the end of `dst` is dropped. The main statement, `getElem?_overwrite`,
says what every position holds afterwards.
-/

namespace ReplicaSum

variable {α : Type}

/-- Lay the elements of a list over an array, from position `start` on. -/
def overwriteList (dst : Array α) (start : Nat) : List α → Array α
  | [] => dst
  | a :: rest => overwriteList (dst.setIfInBounds start a) (start + 1) rest

/-- Lay the elements of `src` over those of `dst`, from position `start` on. -/
def overwrite (dst : Array α) (start : Nat) (src : Array α) : Array α :=
  overwriteList dst start src.toList

@[simp]
theorem size_overwriteList (dst : Array α) (start : Nat) (src : List α) :
  (overwriteList dst start src).size = dst.size
  := by
  induction src generalizing dst start with
  | nil => rfl
  | cons a rest ih => simp [overwriteList, ih]

theorem getElem?_overwriteList (dst : Array α) (start : Nat) (src : List α) (i : Nat) :
  (overwriteList dst start src)[i]? =
    if start ≤ i ∧ i < start + src.length ∧ i < dst.size then src[i - start]? else dst[i]?
  := by
  induction src generalizing dst start with
  | nil =>
    rw [overwriteList, if_neg]
    simp only [List.length_nil]
    omega
  | cons a rest ih =>
    rw [overwriteList, ih]
    simp only [Array.size_setIfInBounds, List.length_cons, Array.getElem?_setIfInBounds]
    by_cases hi : start = i
    · subst hi
      rw [if_neg (by omega)]
      by_cases hs : start < dst.size
      · simp [hs]
      · simp [hs]
    · by_cases hlt : start < i
      · obtain ⟨d, rfl⟩ : ∃ d, i = start + 1 + d := ⟨i - (start + 1), by omega⟩
        have e₁ : start + 1 + d - (start + 1) = d := by omega
        have e₂ : start + 1 + d - start = d + 1 := by omega
        simp only [e₁, e₂, List.getElem?_cons_succ, if_neg hi]
        congr 1
        apply propext
        omega
      · rw [if_neg (by omega), if_neg hi, if_neg (by omega)]

@[simp]
theorem size_overwrite (dst : Array α) (start : Nat) (src : Array α) :
  (overwrite dst start src).size = dst.size
  := size_overwriteList _ _ _

/-- Exactly the positions `start..start + src.size` that `dst` has are overwritten. -/
theorem getElem?_overwrite (dst : Array α) (start : Nat) (src : Array α) (i : Nat) :
  (overwrite dst start src)[i]? =
    if start ≤ i ∧ i < start + src.size ∧ i < dst.size then src[i - start]? else dst[i]?
  := by
  simp [overwrite, getElem?_overwriteList]

end ReplicaSum
