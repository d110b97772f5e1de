import ReplicaSum.Reducer
import ReplicaSum.Proofs.Footprint
import ReplicaSum.Proofs.Reference
import Mathlib.Data.List.Basic

/-!
# The sums of a block

How the steps of the reducer that only compute are related to the reference sum: putting a block of
each array into the running sum, in the order of the arrays, and rounding the front of the sum
into a buffer.
-/

namespace ReplicaSum

/-! ### The arrays -/

namespace Reducer

theorem map_val_arrays {nArray : Nat} (h : nArray ≤ maxArray) :
  (arrays nArray).map Fin.val = List.range nArray
  := by
  apply List.ext_getElem
  · simp only [arrays, List.length_map, List.length_take, List.length_finRange, List.length_range]
    exact Nat.min_eq_left h
  · intro i _ _
    simp [arrays]

theorem nodup_arrays (nArray : Nat) :
  (arrays nArray).Nodup
  := (List.nodup_finRange maxArray).sublist (List.take_sublist _ _)

theorem mem_arrays {nArray : Nat} {a : Fin maxArray} :
  a ∈ arrays nArray ↔ a.val < nArray
  := by
  rw [arrays, List.mem_take_iff_getElem]
  simp only [List.getElem_finRange, List.length_finRange]
  constructor
  · rintro ⟨i, hi, rfl⟩
    simp only [Fin.val_cast]
    omega
  · intro ha
    exact ⟨a.val, by omega, rfl⟩

/-- The arrays before array `m`, array `m` and those behind it. -/
theorem arrays_eq_append {nArray m : Nat} (hm : m < nArray) (h : nArray ≤ maxArray) :
  ∃ rest, arrays nArray = arrays m ++ ⟨m, Nat.lt_of_lt_of_le hm h⟩ :: rest
  := by
  have hlen : m < (arrays nArray).length := by
    rw [← List.length_map Fin.val, map_val_arrays h, List.length_range]
    apply hm
  have htake : (arrays nArray).take m = arrays m := by
    rw [arrays, arrays, List.take_take, Nat.min_eq_left (Nat.le_of_lt hm)]
  have hget : (arrays nArray)[m] = ⟨m, Nat.lt_of_lt_of_le hm h⟩ := by
    simp [arrays]
  use (arrays nArray).drop (m + 1)
  rw [← hget, ← htake, ← List.drop_eq_getElem_cons hlen, List.take_append_drop]

/-- Array `0` comes first. -/
theorem arrays_eq_cons {nArray : Nat} (h₀ : 0 < nArray) (h : nArray ≤ maxArray) :
  ∃ rest, arrays nArray = 0 :: rest
  := arrays_eq_append h₀ h

/-! ### Sums -/

/-- Put a record of array `a` into a running sum: array `0` seeds it, the others are added. -/
def absorbRecord (a : Nat) (record : Record) (sum : WideRecord) : WideRecord :=
  if a = 0 then record.promote else sum.addPromoted record

/-- Put the records that `record` gives for some arrays into a running sum, one after the other. -/
def absorbRecords (arrays : List (Fin maxArray)) (record : Nat → Record) (sum : WideRecord) :
    WideRecord :=
  arrays.foldl (fun sum (a : Fin maxArray) => absorbRecord a (record a) sum) sum

/-- A block that is no longer than the running sum can be put into it. -/
theorem absorb_eq_ok (a : Fin maxArray) {block : Array Record} {sum : BlockSum}
    (h : block.size ≤ sum.size) :
  ∃ sum', absorb a block sum = .ok sum' ∧ sum'.size = sum.size ∧
    ∀ (j : Nat) (record : Record), block[j]? = some record →
      sum'[j]? = sum[j]?.map (absorbRecord a record)
  := by
  by_cases ha : a = 0
  · obtain ⟨sum', hsum'⟩ := BlockSum.exists_promote h
    use sum'
    constructor
    · rw [absorb, if_pos ha, hsum']
    constructor
    · apply BlockSum.size_promote hsum'
    · intro j record hrecord
      obtain ⟨hj, -⟩ := Array.getElem?_eq_some_iff.mp hrecord
      rw [BlockSum.getElem?_promote hsum', hrecord]
      rw [Array.getElem?_eq_getElem (show j < sum.size by omega), Option.map_some, absorbRecord,
        if_pos (Fin.val_eq_zero_iff.mpr ha)]
  · obtain ⟨sum', hsum'⟩ := BlockSum.exists_accumulate h
    use sum'
    constructor
    · rw [absorb, if_neg ha, hsum']
    constructor
    · apply BlockSum.size_accumulate hsum'
    · intro j record hrecord
      rw [BlockSum.getElem?_accumulate hsum', hrecord]
      apply Option.map_congr
      intro wide _
      rw [absorbRecord, if_neg (Fin.val_ne_zero_iff.mpr ha)]

/-- Putting the records of the first arrays into a running sum forgets what it held and gives their
reference sum. -/
theorem demote_absorbRecords {nArray : Nat} (h₀ : 0 < nArray) (h : nArray ≤ maxArray)
    (record : Nat → Record) (sum : WideRecord) :
  (absorbRecords (arrays nArray) record sum).demote
    = Lanes.combined (record 0) ((List.range' 1 (nArray - 1)).map record)
  := by
  obtain ⟨n, rfl⟩ : ∃ n, nArray = n + 1 := ⟨nArray - 1, by omega⟩
  have hval : (arrays (n + 1)).map Fin.val = 0 :: List.range' 1 n := by
    rw [map_val_arrays h, List.range_eq_range', List.range'_succ]
  have hfold : absorbRecords (arrays (n + 1)) record sum
      = ((arrays (n + 1)).map Fin.val).foldl (fun sum a => absorbRecord a (record a) sum) sum := by
    rw [absorbRecords, List.foldl_map]
  have hfirst : absorbRecord 0 (record 0) sum = (record 0).promote := if_pos rfl
  rw [hfold, hval, List.foldl_cons, hfirst, Lanes.combined, List.foldl_map, Nat.add_sub_cancel]
  congr 1
  apply List.foldl_ext
  intro wide a ha
  rw [List.mem_range'_1] at ha
  rw [absorbRecord, if_neg (by omega)]

end Reducer

/-- Every record of a block lies in the slice. -/
theorem Window.getElem?_block_eq_recordAt (w : Window) {data : Data} {a j : Nat} {s : Span}
    (h : w.address a s.stop ≤ data.size) (hj : j < s.length) :
  (w.block data a s)[j]? = some (recordAt data (w.address a (s.start + j)))
  := by
  have hlt : w.address a (s.start + j) < data.size := by
    simp only [Window.address, Span.length] at *
    omega
  rw [Window.getElem?_block, if_pos hj, recordAt, Array.getElem?_eq_getElem hlt, Option.getD_some]

/-! ### Buffers -/

namespace Buffer

theorem front_eq_ok {b : Buffer} {len : Nat} (h : len ≤ b.records.size) :
  b.front len = .ok (b.records.take len)
  := by
  rw [front, if_neg (by omega)]

/-- A buffer that is long enough can be filled with the front of a sum. -/
theorem fill_eq_ok {b : Buffer} {sum : BlockSum} {len : Nat} (hb : len ≤ b.records.size)
    (hsum : len ≤ sum.size) :
  ∃ b', b.fill sum len = .ok b' ∧ b'.name = b.name ∧ b'.records.size = b.records.size ∧
    ∀ j < len, b'.records[j]? = sum[j]?.map Lanes.demote
  := by
  obtain ⟨rounded, hrounded⟩ := BlockSum.exists_demote hsum
  have hsize : rounded.size = len := BlockSum.size_demote hrounded
  use { b with records := overwrite b.records 0 rounded }
  constructor
  · rw [fill, if_neg (by omega), hrounded]
    rfl
  constructor
  · rfl
  constructor
  · apply size_overwrite _ _ _
  · intro j hj
    rw [getElem?_overwrite, if_pos (by omega), Nat.sub_zero, BlockSum.getElem?_demote hrounded,
      if_pos hj]

end Buffer

end ReplicaSum
