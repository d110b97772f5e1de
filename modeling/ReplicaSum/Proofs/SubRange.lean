import ReplicaSum.Proofs.Reducer
import ReplicaSum.Proofs.Views

/-!
# Part of a rank's records

The reducer on an immediate engine, over any part of the records of a rank and on an engine that is
in use already. Of the data, exactly the records of the part change; of the engine, exactly what is
kept under the tags of the reducer. The sums don't depend on what the scratch memory held.
-/

namespace ReplicaSum

open Reducer

namespace Immediate

variable {e e' : Immediate}

/-- Engines with the same window that keep the same under every tag are the same. -/
theorem ext (hwindow : e.window = e'.window)
    (hslots : ∀ tag, e.slots.get? tag = e'.slots.get? tag) :
  e = e'
  := by
  obtain ⟨w, slots⟩ := e
  obtain ⟨w', slots'⟩ := e'
  congr 1
  apply TagSlots.ext hslots

end Immediate

/-- The reducer can be used on any part of the records that a view shows, with any number of its
arrays, whatever the scratch memory holds and whatever is in flight under higher tags. -/
theorem reduceRank_part {data : Data} {v : View} (hv : v.Of data.size) {e : Immediate}
    (he : e.window = v.window) {range : Span} (hrange : ∀ i ∈ range, i ∈ v.owned) {nArray : Nat}
    (h₂ : 2 ≤ nArray) (hn : nArray ≤ v.nArray)
    (hfree : ∀ tag : Tag, tag.index.val ≤ nArray → e.slots.get? tag = none) (scratch : Scratch) :
  ∃ e' data',
    (reduceRank range nArray scratch).run.run e data
      = (.ok (.complete range scratch.blockLen), e', data') ∧
    Reduced v.stride nArray (· ∈ range) data data' ∧
    e'.window = e.window ∧
    (∀ tag : Tag, nArray < tag.index.val → e'.slots.get? tag = e.slots.get? tag) ∧
    (∀ tag : Tag, tag.index.val < nArray → e'.slots.get? tag = none) ∧
    (∀ tag : Tag, tag.index.val = nArray →
      (e'.slots.isPending tag = true ↔ range.isEmpty = false)) ∧
    (range.isEmpty = true → e' = e ∧ data' = data)
  := by
  have htags : nArray < maxTags := Nat.lt_succ_of_le (Nat.le_trans hn hv.fits.nArray_le)
  have hslot : ∀ tag : Tag, tag.index.val ≤ nArray → (Tracked.mk e .empty).slot tag = none := hfree
  have hout : (Tracked.mk e .empty).slot (.output ⟨nArray, htags⟩) = none := hfree _ (Nat.le_refl _)
  obtain ⟨e', data', hruns, hsame, hinput, houtput, hreduced⟩ :=
    runs_reduceRank (e := ⟨e, .empty⟩) scratch he hv.fits h₂ hn htags hrange
      (fun a ha => hslot _ (Nat.le_of_lt (mem_arrays.mp ha))) (fun tag => TagSlots.get?_empty tag)
      (by simp [hout])
  rw [hout, Option.none_or] at houtput
  have hkept : ∀ tag : Tag, nArray < tag.index.val → e'.slot tag = e.slots.get? tag := by
    intro tag htag
    apply hsame.slot_eq
    rw [isInput_or_output_iff]
    omega
  have hinputs : ∀ tag : Tag, tag.index.val < nArray → e'.slot tag = none := by
    rintro ⟨i⟩ hi
    have hmax : i.val < maxArray := Nat.lt_of_lt_of_le hi (Nat.le_of_lt_succ htags)
    apply hinput ⟨i.val, hmax⟩ (mem_arrays.mpr hi)
  have houtputs : ∀ tag : Tag, tag.index.val = nArray →
      (e'.engine.slots.isPending tag = true ↔ range.isEmpty = false) := by
    rintro ⟨i⟩ hi
    obtain rfl : i = ⟨nArray, htags⟩ := Fin.ext hi
    have hsome : (e'.slot (.output ⟨nArray, htags⟩)).isSome = !range.isEmpty := by
      rw [← Option.isSome_map, houtput]
      cases range.isEmpty <;> rfl
    change (e'.slot (.output ⟨nArray, htags⟩)).isSome = true ↔ _
    rw [hsome, Bool.not_eq_true']
  use e'.engine, data', (Tracked.runs_engine hruns.anyCall).run_eq, hreduced, hsame.window_eq,
    hkept, hinputs, houtputs
  intro hempty
  constructor
  · apply Immediate.ext hsame.window_eq
    rintro tag
    rcases Nat.lt_trichotomy tag.index.val nArray with hlt | heq | hgt
    · rw [hfree tag (Nat.le_of_lt hlt)]
      apply hinputs tag hlt
    · rw [hfree tag (Nat.le_of_eq heq)]
      have hpending := houtputs tag heq
      simpa [TagSlots.isPending, hempty] using hpending
    · apply hkept tag hgt
  · have hnone : Reduced v.stride nArray (· ∈ range) data data :=
      .of_forall_not (Span.not_mem_of_isEmpty hempty) data
    apply hreduced.unique hnone

/-- Three of the four records that a view shows of three arrays, taken from the first two arrays in
blocks of two. The scratch memory is larger than it needs to be, and a buffer is kept under tag
`7`. -/
theorem reduceRank_part_two_of_three :
  ∃ (data : Data) (held : Buffer) (e e' : Immediate) (scratch : Scratch) (data' : Data),
    data = Array.replicate 17 (Lanes.splat 1.5) ∧ held = ⟨.client "kept", #[]⟩ ∧
    e = ⟨(View.mk 3 6 1 4 1).window, TagSlots.empty.set ⟨7⟩ (some held)⟩ ∧
    (scratch.blockLen = 2 ∧ scratch.staged.size = 30 ∧ scratch.sum.size = 3) ∧
    View.Of 17 ⟨3, 6, 1, 4, 1⟩ ∧ (∀ i ∈ Span.mk 2 5, i ∈ (View.mk 3 6 1 4 1).owned) ∧
    (∀ tag : Tag, tag.index.val ≤ 2 → e.slots.get? tag = none) ∧
    (reduceRank ⟨2, 5⟩ 2 scratch).run.run e data = (.ok ⟨⟨2, 5⟩, 2, 3⟩, e', data') ∧
    Reduced 6 2 (· ∈ Span.mk 2 5) data data' ∧ e'.slots.get? ⟨7⟩ = some held ∧
    e'.slots.isPending ⟨2⟩ = true
  := by
  have hwhole : View.Of 17 ⟨3, 6, 0, 5, 1⟩ := .ofLayout (l := ⟨3, 5, 6⟩) rfl
  have hview : View.Of 17 ⟨3, 6, 1, 4, 1⟩ := .back (k := 1) hwhole rfl
  have hrange : ∀ i ∈ Span.mk 2 5, i ∈ (View.mk 3 6 1 4 1).owned := by
    simp only [Span.mem_iff, View.owned]
    omega
  let scratch : Scratch :=
    { staged := Array.replicate 30 Lanes.zero
      sum := Array.replicate 3 Lanes.wideZero
      out := Array.replicate 4 Lanes.zero
      blockLen := 2
      isBlockLen := by decide
      staged_size := by
        rw [Array.size_replicate]
        decide
      sum_size := by simp
      out_size := by simp }
  let held : Buffer := ⟨.client "kept", #[]⟩
  let e : Immediate := ⟨(View.mk 3 6 1 4 1).window, TagSlots.empty.set ⟨7⟩ (some held)⟩
  have hfree : ∀ tag : Tag, tag.index.val ≤ 2 → e.slots.get? tag = none := by
    rintro ⟨i⟩ hi
    rw [TagSlots.get?_set, if_neg, TagSlots.get?_empty]
    rintro heq
    cases heq
    exact absurd hi (by decide)
  have hsize : View.Of (Array.replicate 17 (Lanes.splat 1.5) : Data).size ⟨3, 6, 1, 4, 1⟩ := by
    rw [Array.size_replicate]
    apply hview
  obtain ⟨e', data', hrun, hreduced, -, hkept, -, hout, -⟩ :=
    reduceRank_part (e := e) hsize rfl hrange (Nat.le_refl 2) (by decide) hfree scratch
  have hreport : RankReport.complete ⟨2, 5⟩ scratch.blockLen = ⟨⟨2, 5⟩, 2, 3⟩ :=
    show RankReport.complete ⟨2, 5⟩ 2 = ⟨⟨2, 5⟩, 2, 3⟩ by decide
  rw [hreport] at hrun
  use Array.replicate 17 (Lanes.splat 1.5), held, e, e', scratch, data', rfl, rfl, rfl
  constructor
  · simp [scratch]
  use hview, hrange, hfree, hrun, hreduced
  constructor
  · rw [hkept ⟨7⟩ (by decide), TagSlots.get?_set, if_pos rfl]
  · apply (hout ⟨2⟩ rfl).mpr rfl

end ReplicaSum
