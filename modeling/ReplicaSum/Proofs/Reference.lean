import ReplicaSum.View
import Mathlib.Tactic.Common

/-!
# The reference sum

What a reduction is meant to compute, said without blocks, ranks or transfers. `laneSum` is the sum
of one lane of one record over all arrays, taken in double precision in the order of the arrays
and rounded once. `Reduced` says that certain records of array `0` have been replaced by their
sums and that nothing else has changed. Reductions of different records compose.
-/

namespace ReplicaSum

/-- The record at a position of a slice. -/
def recordAt (data : Data) (p : Nat) : Record := data[p]?.getD Lanes.zero

/-- The sum of a lane of record `i` over `nArray` arrays that start `stride` records apart. The
running sum starts with array `0` and takes arrays `1`, `2`, ... in this order. -/
def laneSum (stride nArray : Nat) (data : Data) (i : Nat) (f : Fin nFields) (k : Fin nLanes) :
    Float32 :=
  ((List.range' 1 (nArray - 1)).foldl
    (fun sum a => sum + ((recordAt data (a * stride + i)).lane f k).toFloat)
    ((recordAt data i).lane f k).toFloat).toFloat32

/-- The sum of record `i` over all arrays. -/
def replicaSum (stride nArray : Nat) (data : Data) (i : Nat) : Record :=
  Lanes.ofFn (laneSum stride nArray data i)

/-- The slice `after` is the slice `before` with the records of array `0` whose index satisfies `p`
replaced by their sums. -/
structure Reduced (stride nArray : Nat) (p : Nat → Prop) (before after : Data) : Prop where
  size_eq : after.size = before.size
  summed : ∀ i, p i → i < before.size → after[i]? = some (replicaSum stride nArray before i)
  kept : ∀ i, ¬ p i → after[i]? = before[i]?

variable {stride nArray : Nat} {p q : Nat → Prop} {d e f : Data}

theorem recordAt_congr {i : Nat} (h : d[i]? = e[i]?) :
  recordAt d i = recordAt e i
  := by
  rw [recordAt, recordAt, h]

/-- A running sum of lanes is the lane of the running sum. -/
theorem lane_foldl_addPromoted (records : List Record) (sum : WideRecord) (f : Fin nFields)
    (k : Fin nLanes) :
  (records.foldl Lanes.addPromoted sum).lane f k
    = records.foldl (fun sum record => sum + (record.lane f k).toFloat) (sum.lane f k)
  := by
  induction records generalizing sum with
  | nil => rfl
  | cons record rest ih =>
    rw [List.foldl_cons, List.foldl_cons, ih, Lanes.lane_addPromoted]

/-- Combining the records of all arrays gives the reference sum. -/
theorem combined_eq_replicaSum (stride nArray : Nat) (data : Data) (i : Nat) :
  Lanes.combined (recordAt data i)
      ((List.range' 1 (nArray - 1)).map fun a => recordAt data (a * stride + i))
    = replicaSum stride nArray data i
  := by
  apply Lanes.ext_lane
  intro f k
  rw [Lanes.combined, Lanes.lane_demote, lane_foldl_addPromoted, Lanes.lane_promote,
    List.foldl_map, replicaSum, Lanes.lane_ofFn, laneSum]

/-- A sum depends only on the records that it adds up. -/
theorem replicaSum_congr {i : Nat} (hn : 0 < nArray)
    (h : ∀ a < nArray, d[a * stride + i]? = e[a * stride + i]?) :
  replicaSum stride nArray d i = replicaSum stride nArray e i
  := by
  have h₀ : d[i]? = e[i]? := by
    simpa using h 0 hn
  rw [← combined_eq_replicaSum, ← combined_eq_replicaSum, recordAt_congr h₀]
  congr 1
  apply List.map_congr_left
  intro a ha
  apply recordAt_congr
  apply h
  rw [List.mem_range'_1] at ha
  omega

namespace Reduced

/-- Reducing no record changes nothing. -/
theorem of_forall_not (h : ∀ i, ¬ p i) (d : Data) :
  Reduced stride nArray p d d
  := ⟨rfl, fun i hi => absurd hi (h i), fun _ _ => rfl⟩

theorem congr (h : Reduced stride nArray p d e) (hpq : ∀ i, p i ↔ q i) :
  Reduced stride nArray q d e
  := by
  obtain rfl : p = q := by
    funext i
    apply propext (hpq i)
  apply h

/-- There is only one way to reduce given records. -/
theorem unique (h : Reduced stride nArray p d e) (h' : Reduced stride nArray p d f) :
  e = f
  := by
  apply Array.ext_getElem?
  intro i
  by_cases hp : p i
  · by_cases hi : i < d.size
    · rw [h.summed i hp hi, h'.summed i hp hi]
    · have := h.size_eq
      have := h'.size_eq
      rw [Array.getElem?_eq_none (by omega), Array.getElem?_eq_none (by omega)]
  · rw [h.kept i hp, h'.kept i hp]

/-- Records can be reduced after others that their sums don't depend on. -/
theorem trans (h : Reduced stride nArray p d e) (h' : Reduced stride nArray q e f)
    (hn : 0 < nArray) (hq : ∀ i, q i → ∀ a < nArray, ¬ p (a * stride + i)) :
  Reduced stride nArray (fun i => p i ∨ q i) d f
  where
  size_eq := h'.size_eq.trans h.size_eq
  summed i hi hlt := by
    by_cases hqi : q i
    · have hsum : replicaSum stride nArray e i = replicaSum stride nArray d i := by
        apply replicaSum_congr hn
        intro a ha
        apply h.kept _ (hq i hqi a ha)
      rw [h'.summed i hqi (h.size_eq ▸ hlt), hsum]
    · rw [h'.kept i hqi, h.summed i (hi.resolve_right hqi) hlt]
  kept i hi := by
    rw [h'.kept i (fun hqi => hi (.inr hqi)), h.kept i (fun hpi => hi (.inl hpi))]

/-- A stretch of records can be reduced from its front on, since a sum depends on nothing before its
own record. -/
theorem cons {s : Span} {stop : Nat} (h : Reduced stride nArray (· ∈ s) d e)
    (h' : Reduced stride nArray (fun i => s.stop ≤ i ∧ i < stop) e f) (hn : 0 < nArray)
    (hle : s.start ≤ s.stop) (hstop : s.stop ≤ stop) :
  Reduced stride nArray (fun i => s.start ≤ i ∧ i < stop) d f
  := by
  have hafter : ∀ i, s.stop ≤ i ∧ i < stop → ∀ a < nArray, a * stride + i ∉ s := by
    intro i hi a _ hmem
    have := (Span.mem_iff.mp hmem).2
    omega
  apply (h.trans h' hn hafter).congr
  intro i
  rw [Span.mem_iff]
  omega

/-- Blocks that follow one another can be reduced in their order. -/
theorem cons_blocks {s : Span} {blocks : List Span} (h : Reduced stride nArray (· ∈ s) d e)
    (h' : Reduced stride nArray (fun i => ∃ b ∈ blocks, i ∈ b) e f) (hn : 0 < nArray)
    (hbehind : ∀ b ∈ blocks, s.stop ≤ b.start) :
  Reduced stride nArray (fun i => ∃ b ∈ s :: blocks, i ∈ b) d f
  := by
  have hafter : ∀ i, (∃ b ∈ blocks, i ∈ b) → ∀ a < nArray, a * stride + i ∉ s := by
    rintro i ⟨b, hb, hi⟩ a _ hmem
    have := hbehind b hb
    rw [Span.mem_iff] at hi hmem
    omega
  apply (h.trans h' hn hafter).congr
  intro i
  simp only [List.mem_cons, exists_eq_or_imp]

end Reduced

end ReplicaSum
