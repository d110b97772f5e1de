import ReplicaSum.Failure
import ReplicaSum.Record

/-!
# The running sum of a block

A block is summed in a buffer of wide records, one for each record of the block. The first
array seeds the sum and the others are added to it, in their order. A block may be shorter than
the buffer; the entries behind it keep what they held.
-/

namespace ReplicaSum

/-- The running sums of the records of a block. -/
abbrev BlockSum := Array WideRecord

namespace BlockSum

/-- Put the promotion of `src` into the front of the sum. -/
def promote (sum : BlockSum) (src : Array Record) : Except Violation BlockSum :=
  if sum.size < src.size then .error .sumTooShort
  else .ok <| sum.mapIdx fun j wide =>
    match src[j]? with
    | some record => record.promote
    | none => wide

/-- Add the promotion of `src` to the front of the sum. -/
def accumulate (sum : BlockSum) (src : Array Record) : Except Violation BlockSum :=
  if sum.size < src.size then .error .sumTooShort
  else .ok <| sum.mapIdx fun j wide =>
    match src[j]? with
    | some record => wide.addPromoted record
    | none => wide

/-- The demotion of the first `len` entries of the sum. -/
def demote (sum : BlockSum) (len : Nat) : Except Violation (Array Record) :=
  if sum.size < len then .error .sumTooShort
  else .ok ((sum.take len).map Lanes.demote)

theorem exists_promote {sum : BlockSum} {src : Array Record} (h : src.size ≤ sum.size) :
  ∃ sum', sum.promote src = .ok sum'
  := ⟨_, if_neg (Nat.not_lt.mpr h)⟩

theorem exists_accumulate {sum : BlockSum} {src : Array Record} (h : src.size ≤ sum.size) :
  ∃ sum', sum.accumulate src = .ok sum'
  := ⟨_, if_neg (Nat.not_lt.mpr h)⟩

theorem exists_demote {sum : BlockSum} {len : Nat} (h : len ≤ sum.size) :
  ∃ out, sum.demote len = .ok out
  := ⟨_, if_neg (Nat.not_lt.mpr h)⟩

theorem size_promote {sum sum' : BlockSum} {src : Array Record}
    (h : sum.promote src = .ok sum') :
  sum'.size = sum.size
  := by
  simp only [promote] at h
  split at h
  · cases h
  · cases h
    exact Array.size_mapIdx

theorem size_accumulate {sum sum' : BlockSum} {src : Array Record}
    (h : sum.accumulate src = .ok sum') :
  sum'.size = sum.size
  := by
  simp only [accumulate] at h
  split at h
  · cases h
  · cases h
    exact Array.size_mapIdx

theorem size_demote {sum : BlockSum} {len : Nat} {out : Array Record}
    (h : sum.demote len = .ok out) :
  out.size = len
  := by
  simp only [demote] at h
  split at h
  · cases h
  · cases h
    simp only [Array.size_map, Array.take_eq_extract, Array.size_extract]
    omega

theorem getElem?_promote {sum sum' : BlockSum} {src : Array Record}
    (h : sum.promote src = .ok sum') (j : Nat) :
  sum'[j]? = match src[j]? with
    | some record => some record.promote
    | none => sum[j]?
  := by
  simp only [promote] at h
  split at h
  · cases h
  · cases h
    rw [Array.getElem?_mapIdx]
    by_cases hj : j < src.size
    · rw [Array.getElem?_eq_getElem hj, Array.getElem?_eq_getElem (show j < sum.size by omega)]
      rfl
    · rw [Array.getElem?_eq_none (by omega)]
      cases sum[j]? <;> rfl

theorem getElem?_accumulate {sum sum' : BlockSum} {src : Array Record}
    (h : sum.accumulate src = .ok sum') (j : Nat) :
  sum'[j]? = match src[j]? with
    | some record => sum[j]?.map (·.addPromoted record)
    | none => sum[j]?
  := by
  simp only [accumulate] at h
  split at h
  · cases h
  · cases h
    rw [Array.getElem?_mapIdx]
    cases src[j]? <;> cases sum[j]? <;> rfl

theorem getElem?_demote {sum : BlockSum} {len : Nat} {out : Array Record}
    (h : sum.demote len = .ok out) (j : Nat) :
  out[j]? = if j < len then sum[j]?.map Lanes.demote else none
  := by
  simp only [demote] at h
  split at h
  · cases h
  · cases h
    simp only [Array.getElem?_map, Array.take_eq_extract, Array.getElem?_extract]
    by_cases hj : j < len
    · rw [if_pos (by omega), if_pos hj, Nat.zero_add]
    · rw [if_neg (by omega), if_neg hj]
      rfl

end BlockSum

end ReplicaSum
