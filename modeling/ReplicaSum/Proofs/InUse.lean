import ReplicaSum.Proofs.Faults
import ReplicaSum.Proofs.Views

/-!
# Engines in use

The reducer on an immediate engine that keeps buffers of somebody else. A busy tag of an array stops
it while it asks for the first block: by then it has asked for the block of every array before, and
nothing has been stored. A busy outgoing tag doesn't stop it. The wait before the first block is
stored hands out the foreign buffer, which from then on takes the place of the buffer for outgoing
blocks, unless it is too short for the first block.
-/

namespace ReplicaSum

open Reducer

namespace RankM.Runs

variable {α σ : Type} [TransferEngine σ] {P : Call → σ → Data → Prop}

/-- A precondition that is insisted on and doesn't hold ends a program. -/
theorem insist_error {result : Except Violation α} {cause : Violation} (h : result = .error cause)
    (engine : σ) (data : Data) :
  Runs P (RankM.insist result) engine data (.error (.violation cause)) engine data
  := by
  subst h
  exact ⟨rfl, trivial⟩

end RankM.Runs

/-- A transfer under a busy tag is refused, and everything stays as it is. -/
theorem Tracked.runs_submit_busy {e : Tracked} {tag : Tag} {t : Transfer} (h : e.slot tag ≠ none)
    (data : Data) :
  RankM.Runs Call.Any (RankM.ask (Session.request (.submit tag t))) e data
    (.error (.error (.transfer (.tagBusy tag)))) e data
  := by
  apply RankM.Runs.ask_error
  · simp only [Session.request, Session.run, Tracked.answer_submit_busy h]
  · exact ⟨trivial, trivial⟩

namespace Reducer

open Tracked (SameOff)

variable {w : Window} {e : Tracked} {data : Data} {room : Nat} {nArray : Nat}
variable {a : Fin maxArray} {out : Tag}

/-- Priming stops at the first array with a busy tag. The arrays before it have been asked for. -/
theorem runs_prime_busy {scratch : Scratch} {first : Span} (hw : e.window = w)
    (hfits : w.Fits data.size) (hfirst : w.check first scratch.blockLen = .ok ())
    (hflight : ∀ tag, e.flight tag = none) (ha : a.val < nArray) (hn : nArray ≤ w.nArray)
    (hbusy : e.slot (.input a) ≠ none) (hfree : ∀ b ∈ arrays a, e.slot (.input b) = none) :
  ∃ e', RankM.Runs Call.Any (Bare.prime scratch first (arrays nArray)) e data
      (.error (.error (.transfer (.tagBusy (.input a))))) e' data ∧
    SameOff (IsInput (arrays a)) e e' ∧ ∀ b ∈ arrays a, e'.slot (.input b) ≠ none
  := by
  have hmax : nArray ≤ maxArray := Nat.le_trans hn hfits.nArray_le
  obtain ⟨rest, harrays⟩ := arrays_eq_append ha hmax
  have hwrites : e.WritesBefore first.start := .of_idle hflight _
  obtain ⟨e', hprime, hsame, hfetching⟩ := runs_prime hw hfits hfirst hwrites (arrays a)
    (nodup_arrays a) (fun b hb => by have := mem_arrays.mp hb; omega)
    (fun b hb => ⟨hfree b hb, hflight _⟩)
  have hbusy' : e'.slot (.input a) ≠ none := by
    rw [hsame.slot_eq _ (not_isInput_arrays a)]
    apply hbusy
  use e'
  constructor
  · rw [harrays, prime_append]
    apply hprime.anyCall.bind
    apply RankM.Runs.bind_error
    apply Tracked.runs_submit_busy hbusy' data
  · use hsame
    intro b hb
    obtain ⟨buffer, held, -, hslot, -⟩ := hfetching b hb
    rw [hslot]
    exact Option.some_ne_none held

/-- A block isn't stored if the buffer that the outgoing tag gives back is too short for it. -/
theorem runs_emit_short {cur : Span} {sum : BlockSum} {spare : Option Buffer} {b : Buffer}
    (hslot : e.slot out = some b) (hshort : b.records.size < cur.length) (data : Data) :
  RankM.Runs Call.Any (Bare.emit out cur sum spare) e data (.error (.violation .bufferTooShort))
    (e.freed out) data
  := by
  have hwait := (Tracked.runs_wait e out data).anyCall
  rw [hslot] at hwait
  apply hwait.bind
  apply RankM.Runs.bind (RankM.Runs.pure b _ data)
  apply RankM.Runs.bind_error
  apply RankM.Runs.insist_error
  rw [Buffer.fill, if_pos hshort]

/-- The loop ends before its first block is stored if the buffer under the outgoing tag is too short
for the block. -/
theorem runs_reduceAll_short {scratch : Scratch} {first : Span} {rest : List Span}
    {start stop : Nat} {b : Buffer} (hw : e.window = w) (hfits : w.Fits data.size)
    (hn : nArray ≤ w.nArray)
    (hout : ¬ IsInput (arrays nArray) out)
    (hcheck : ∀ s ∈ first :: rest, w.check s scratch.blockLen = .ok ())
    (htiles : Span.Tiles start stop (first :: rest))
    (hslot : ∀ a ∈ arrays nArray, e.slot (.input a) = none)
    (hflight : ∀ tag, e.flight tag = none) (hb : e.slot out = some b)
    (hshort : b.records.size < first.length) (report : RankReport) :
  ∃ e', RankM.Runs Call.Any (Bare.reduceAll (arrays nArray) out (first :: rest) scratch report) e
    data (.error (.violation .bufferTooShort)) e' data
  := by
  have hwrites : e.WritesBefore first.start := .of_idle hflight _
  have hlt : ∀ a ∈ arrays nArray, a < w.nArray :=
    fun a ha => Nat.lt_of_lt_of_le (mem_arrays.mp ha) hn
  cases htiles with
  | cons hle htiles =>
  obtain ⟨e₁, hprime, hsame₁, hfetching⟩ :=
    runs_prime hw hfits (hcheck first List.mem_cons_self) hwrites (arrays nArray)
      (nodup_arrays nArray) hlt (fun a ha => ⟨hslot a ha, hflight _⟩)
  have hnext : ∀ s, rest.head? = some s →
      w.check s scratch.blockLen = .ok () ∧ first.stop ≤ s.start := by
    intro s hs
    have hmem := List.mem_of_mem_head? hs
    exact ⟨hcheck s (List.mem_cons_of_mem first hmem), (htiles.bounds hmem).1⟩
  have hwrites₁ : e₁.WritesBefore first.start := by
    intro tag u hu
    by_cases htag : IsInput (arrays nArray) tag
    · obtain ⟨a, ha, rfl⟩ := htag
      intro i hi
      exact absurd hi ((hfetching a ha).not_mem_writes hu i)
    · rw [hsame₁.flight_eq tag htag, hflight] at hu
      cases hu
  obtain ⟨sum', e₂, hconsume, hsame₂, -⟩ :=
    runs_consume (hsame₁.window_eq.trans hw) hfits (hcheck first List.mem_cons_self) hnext hwrites₁
      (arrays nArray) (nodup_arrays nArray) hlt hfetching scratch.sum_size
  have hb₂ : e₂.slot out = some b := by
    rw [hsame₂.slot_eq out hout, hsame₁.slot_eq out hout, hb]
  use e₂.freed out
  apply hprime.anyCall.bind
  apply hconsume.anyCall.bind
  apply RankM.Runs.bind_error
  apply runs_emit_short hb₂ hshort data

/-! ### Blocks -/

variable {range s : Span} {blockLen : Nat} {hpos : 0 < blockLen}

/-- No block is longer than the first one. -/
theorem length_le_of_mem_blocks (hs : s ∈ (range.blocks blockLen hpos).toList) :
  s.length ≤ min blockLen range.length
  := by
  obtain ⟨hstart, hle, hstop⟩ := Span.blocks_tiles.bounds hs
  have hlen : s.length ≤ blockLen := (Blocks.length_of_mem_toList hs).2
  simp only [Span.length] at hlen ⊢
  omega

/-- The first block is as long as a block can be. -/
theorem blocks_eq_cons (hne : range.isEmpty = false) (hpos : 0 < blockLen) :
  ∃ first rest, (range.blocks blockLen hpos).toList = first :: rest ∧
    first.length = min blockLen range.length
  := by
  have hlt : range.start < range.stop := by
    simpa [Span.isEmpty] using hne
  use ⟨range.start, min range.stop (range.start + blockLen)⟩
  use (Blocks.mk (min range.stop (range.start + blockLen)) range.stop blockLen hpos).toList
  constructor
  · apply Blocks.toList_eq_cons
    rw [Span.blocks, Blocks.next?, if_pos hlt]
  · simp only [Span.length]
    omega

end Reducer

section InUse

variable {data : Data} {v : View} {e : Immediate} {range : Span} {nArray : Nat} {foreign : Buffer}

/-- If the tag of an array is busy, the reducer is refused at the first such tag. It has asked for
the arrays before. -/
theorem reduceRank_busy (hv : v.Of data.size) (he : e.window = v.window)
    (hrange : ∀ i ∈ range, i ∈ v.owned) (hne : range.isEmpty = false) (h₂ : 2 ≤ nArray)
    (hn : nArray ≤ v.nArray) (scratch : Scratch) {t : Tag} (hlt : t.index.val < nArray)
    (hbusy : e.slots.isPending t = true)
    (hleast : ∀ u : Tag, u.index < t.index → e.slots.isPending u = false) :
  ∃ e', (reduceRank range nArray scratch).run.run e data
      = (.error (.error (.transfer (.tagBusy t))), e', data) ∧
    e'.window = e.window ∧
    (∀ u b, e.slots.get? u = some b → e'.slots.get? u = some b) ∧
    ∀ u, e'.slots.isPending u = true ↔ e.slots.isPending u = true ∨ u.index < t.index
  := by
  obtain ⟨i⟩ := t
  have hmax : nArray ≤ maxArray := Nat.le_trans hn hv.fits.nArray_le
  have himax : i.val < maxArray := Nat.lt_of_lt_of_le hlt hmax
  obtain ⟨first, rest, hblocks, -⟩ := blocks_eq_cons hne scratch.isBlockLen.1
  have hcheck : v.window.check first scratch.blockLen = .ok () := by
    apply check_blocks scratch hrange
    rw [hblocks]
    apply List.mem_cons_self
  obtain ⟨e', hprime, hsame, hasked⟩ := runs_prime_busy (e := ⟨e, .empty⟩) (a := ⟨i, himax⟩) he
    hv.fits hcheck TagSlots.get?_empty hlt hn (Option.isSome_iff_ne_none.mp hbusy)
    (fun b hb => TagSlots.get?_eq_none (hleast _ (Fin.lt_def.mpr (mem_arrays.mp hb))))
  have hruns : RankM.Runs Call.Any (reduceRank range nArray scratch) (Tracked.mk e .empty) data
      (.error (.error (.transfer (.tagBusy ⟨i⟩)))) e' data := by
    rw [reduceRank_eq_bare range h₂ hmax scratch, hblocks]
    exact hprime.bind_error
  have hbefore : ∀ u : Tag, u.index < i → IsInput (arrays i) u := by
    rintro ⟨j⟩ hj
    exact ⟨⟨j, Nat.lt_trans hj himax⟩, mem_arrays.mpr hj, rfl⟩
  have hbehind : ∀ u : Tag, ¬ u.index < i → e'.engine.slots.get? u = e.slots.get? u := by
    intro u hu
    apply hsame.slot_eq
    rintro ⟨b, hb, rfl⟩
    exact hu (Fin.lt_def.mpr (mem_arrays.mp hb))
  use e'.engine, (Tracked.runs_engine hruns).run_eq, hsame.window_eq
  constructor
  · intro u b hub
    rw [hbehind u, hub]
    intro hu
    have hnone := TagSlots.get?_eq_none (hleast u hu)
    rw [hub] at hnone
    cases hnone
  · intro u
    by_cases hu : u.index < i
    · obtain ⟨b, hb, rfl⟩ := hbefore u hu
      simp only [hu, or_true, iff_true]
      exact Option.isSome_iff_ne_none.mpr (hasked b hb)
    · simp only [hu, or_false, TagSlots.isPending, hbehind u hu]

/-- A foreign buffer under the outgoing tag serves for the outgoing blocks if it has room for them.
The reduction is otherwise the one on an idle engine. -/
theorem reduceRank_adopting (hv : v.Of data.size) (he : e.window = v.window)
    (hrange : ∀ i ∈ range, i ∈ v.owned) (h₂ : 2 ≤ nArray) (hn : nArray ≤ v.nArray)
    (scratch : Scratch) (htags : nArray < maxTags)
    (hslot : ∀ a ∈ arrays nArray, e.slots.get? (.input a) = none)
    (hforeign : e.slots.get? ⟨nArray, htags⟩ = some foreign)
    (hroom : min scratch.blockLen range.length ≤ foreign.records.size) :
  ∃ e' idle data',
    (reduceRank range nArray scratch).run.run e data
      = (.ok (.complete range scratch.blockLen), e', data') ∧
    (reduceRank range nArray scratch).run.run (Immediate.new v.window) data
      = (.ok (.complete range scratch.blockLen), idle, data') ∧
    Reduced v.stride nArray (· ∈ range) data data' ∧
    (∃ kept, e'.slots.get? ⟨nArray, htags⟩ = some kept ∧ kept.shape = foreign.shape) ∧
    ∀ u, u ≠ ⟨nArray, htags⟩ → e'.slots.get? u = e.slots.get? u
  := by
  obtain ⟨e', data', hruns, hsame, hinput, hkept, hreduced⟩ :=
    runs_reduceRank (e := ⟨e, .empty⟩) scratch he hv.fits h₂ hn htags hrange hslot
      TagSlots.get?_empty (by
        intro b hb s hs
        obtain rfl : foreign = b := Option.some.inj (hforeign.symm.trans hb)
        apply Nat.le_trans (length_le_of_mem_blocks hs) hroom)
  obtain ⟨idle, idleData, hidle, -, -, -, hidleReduced⟩ :=
    runs_reduceRank (e := .new v.window) scratch rfl hv.fits h₂ hn htags hrange
      (fun _ _ => TagSlots.get?_empty _) (fun _ => TagSlots.get?_empty _) (by
        intro b hb
        rw [Tracked.slot, Tracked.new, Immediate.new, TagSlots.get?_empty] at hb
        cases hb)
  obtain rfl : data' = idleData := hreduced.unique hidleReduced
  use e'.engine, idle.engine, data', (Tracked.runs_engine hruns.anyCall).run_eq,
    (Tracked.runs_engine hidle.anyCall).run_eq, hreduced
  constructor
  · have hslot' : (Tracked.mk e .empty).slot (.output ⟨nArray, htags⟩) = some foreign := hforeign
    rw [hslot', Option.some_or, ite_self, Option.map_some] at hkept
    exact Option.map_eq_some_iff.mp hkept
  · intro u hu
    by_cases hinputs : IsInput (arrays nArray) u
    · obtain ⟨a, ha, rfl⟩ := hinputs
      rw [hslot a ha]
      apply hinput a ha
    · apply hsame.slot_eq
      rintro (hu' | hu')
      · apply hinputs hu'
      · apply hu hu'

/-- If a foreign buffer under the outgoing tag is too short for the first block, the reducer breaks
off before anything is stored. -/
theorem reduceRank_short (hv : v.Of data.size) (he : e.window = v.window)
    (hrange : ∀ i ∈ range, i ∈ v.owned) (hne : range.isEmpty = false) (h₂ : 2 ≤ nArray)
    (hn : nArray ≤ v.nArray) (scratch : Scratch) (htags : nArray < maxTags)
    (hslot : ∀ a ∈ arrays nArray, e.slots.get? (.input a) = none)
    (hforeign : e.slots.get? ⟨nArray, htags⟩ = some foreign)
    (hshort : foreign.records.size < min scratch.blockLen range.length) :
  ∃ e', (reduceRank range nArray scratch).run.run e data
    = (.error (.violation .bufferTooShort), e', data)
  := by
  obtain ⟨first, rest, hblocks, hfirst⟩ := blocks_eq_cons hne scratch.isBlockLen.1
  have hcheck : ∀ s ∈ first :: rest, v.window.check s scratch.blockLen = .ok () := by
    rw [← hblocks]
    intro s hs
    apply check_blocks scratch hrange hs
  have htiles := Span.blocks_tiles (s := range) (h := scratch.isBlockLen.1)
  rw [hblocks] at htiles
  obtain ⟨e', hruns⟩ := runs_reduceAll_short (e := ⟨e, .empty⟩) he hv.fits hn
    (not_isInput_output htags) hcheck htiles hslot TagSlots.get?_empty hforeign (hfirst ▸ hshort)
    (.empty range)
  rw [← hblocks, ← reduceRank_eq_bare range h₂ (Nat.le_of_lt_succ htags) scratch] at hruns
  exact ⟨e'.engine, (Tracked.runs_engine hruns).run_eq⟩

end InUse

/-- The reducer on an engine that is in use. If the tag of an array is busy, it is refused at the
first such tag. Everything in flight is still there, and so is what the reducer has asked for under
the tags before. If only the outgoing tag is busy, the foreign buffer serves for the outgoing blocks
and stays under the tag, and nothing else is different from a reduction on an idle engine. If that
buffer is too short for a block, the reducer breaks off before anything is stored. -/
theorem reduceRank_in_use {data : Data} {v : View} (hv : v.Of data.size) {e : Immediate}
    (he : e.window = v.window) {range : Span} (hrange : ∀ i ∈ range, i ∈ v.owned)
    (hne : range.isEmpty = false) {nArray : Nat} (h₂ : 2 ≤ nArray) (hn : nArray ≤ v.nArray)
    (scratch : Scratch) :
  (∀ t : Tag, t.index.val < nArray → e.slots.isPending t = true →
    (∀ u : Tag, u.index < t.index → e.slots.isPending u = false) →
    ∃ e', (reduceRank range nArray scratch).run.run e data
        = (.error (.error (.transfer (.tagBusy t))), e', data) ∧
      e'.window = e.window ∧
      (∀ u b, e.slots.get? u = some b → e'.slots.get? u = some b) ∧
      ∀ u, e'.slots.isPending u = true ↔ e.slots.isPending u = true ∨ u.index < t.index) ∧
  ((∀ t : Tag, t.index.val < nArray → e.slots.isPending t = false) →
    ∀ (out : Tag) (foreign : Buffer), out.index.val = nArray → e.slots.get? out = some foreign →
      (min scratch.blockLen range.length ≤ foreign.records.size →
        ∃ e' idle data',
          (reduceRank range nArray scratch).run.run e data
            = (.ok (.complete range scratch.blockLen), e', data') ∧
          (reduceRank range nArray scratch).run.run (Immediate.new v.window) data
            = (.ok (.complete range scratch.blockLen), idle, data') ∧
          Reduced v.stride nArray (· ∈ range) data data' ∧
          (∃ kept, e'.slots.get? out = some kept ∧ kept.shape = foreign.shape) ∧
          ∀ u, u ≠ out → e'.slots.get? u = e.slots.get? u) ∧
      (foreign.records.size < min scratch.blockLen range.length →
        ∃ e', (reduceRank range nArray scratch).run.run e data
          = (.error (.violation .bufferTooShort), e', data)))
  := by
  have htags : nArray < maxTags := Nat.lt_succ_of_le (Nat.le_trans hn hv.fits.nArray_le)
  constructor
  · intro t hlt hbusy hleast
    apply reduceRank_busy hv he hrange hne h₂ hn scratch hlt hbusy hleast
  · rintro hfree ⟨i⟩ foreign hout hforeign
    obtain rfl : i = ⟨nArray, htags⟩ := Fin.ext hout
    have hslot : ∀ a ∈ arrays nArray, e.slots.get? (.input a) = none :=
      fun a ha => TagSlots.get?_eq_none (hfree _ (mem_arrays.mp ha))
    constructor
    · intro hroom
      apply reduceRank_adopting hv he hrange h₂ hn scratch htags hslot hforeign hroom
    · intro hshort
      apply reduceRank_short hv he hrange hne h₂ hn scratch htags hslot hforeign hshort

/-- Three of the four records that a view shows of three arrays, in blocks of two. A buffer under
the tag of the second array is in the way of the reducer, one of two records under its outgoing tag
is not, and one of a single record is too short. -/
theorem reduceRank_in_use_two_of_three :
  ∃ (data : Data) (scratch : Scratch) (long short : Buffer),
    data = Array.replicate 17 (Lanes.splat 1.5) ∧ scratch.blockLen = 2 ∧
    long = ⟨.client "long", #[Lanes.zero, Lanes.zero]⟩ ∧ short = ⟨.client "short", #[Lanes.zero]⟩ ∧
    (∃ e', (reduceRank ⟨2, 5⟩ 2 scratch).run.run
        (Immediate.mk (View.mk 3 6 1 4 1).window (TagSlots.empty.set ⟨1⟩ (some short))) data
          = (.error (.error (.transfer (.tagBusy ⟨1⟩))), e', data) ∧
      e'.slots.get? ⟨1⟩ = some short ∧ e'.slots.isPending ⟨0⟩ = true) ∧
    (∃ e' data', (reduceRank ⟨2, 5⟩ 2 scratch).run.run
        (Immediate.mk (View.mk 3 6 1 4 1).window (TagSlots.empty.set ⟨2⟩ (some long))) data
          = (.ok ⟨⟨2, 5⟩, 2, 3⟩, e', data') ∧
      Reduced 6 2 (· ∈ Span.mk 2 5) data data' ∧
      ∃ kept, e'.slots.get? ⟨2⟩ = some kept ∧ kept.shape = long.shape) ∧
    ∃ e', (reduceRank ⟨2, 5⟩ 2 scratch).run.run
        (Immediate.mk (View.mk 3 6 1 4 1).window (TagSlots.empty.set ⟨2⟩ (some short))) data
          = (.error (.violation .bufferTooShort), e', data)
  := by
  have hview : View.Of (Array.replicate 17 (Lanes.splat 1.5) : Data).size ⟨3, 6, 1, 4, 1⟩ := by
    rw [Array.size_replicate]
    exact .back (k := 1) (.ofLayout (l := ⟨3, 5, 6⟩) (v := ⟨3, 6, 0, 5, 1⟩) rfl) rfl
  have hrange : ∀ i ∈ Span.mk 2 5, i ∈ (View.mk 3 6 1 4 1).owned := by
    simp only [Span.mem_iff, View.owned]
    omega
  have hbusy : ∀ (tag : Tag) (b : Buffer),
      (TagSlots.empty.set tag (some b)).isPending tag = true := by
    intro tag b
    rw [TagSlots.isPending, TagSlots.get?_set, if_pos rfl]
    rfl
  have hidle : ∀ (tag u : Tag) (b : Buffer), u ≠ tag →
      (TagSlots.empty.set tag (some b)).isPending u = false := by
    intro tag u b hu
    rw [TagSlots.isPending, TagSlots.get?_set, if_neg (Ne.symm hu), TagSlots.get?_empty]
    rfl
  have hreport : RankReport.complete ⟨2, 5⟩ 2 = ⟨⟨2, 5⟩, 2, 3⟩ := by decide
  have hne : ∀ u : Tag, u.index.val < 2 → u ≠ ⟨2⟩ := by
    rintro u hu rfl
    exact absurd hu (by decide)
  use Array.replicate 17 (Lanes.splat 1.5), .blank 2 (by decide)
  use ⟨.client "long", #[Lanes.zero, Lanes.zero]⟩, ⟨.client "short", #[Lanes.zero]⟩
  refine ⟨rfl, rfl, rfl, rfl, ?_, ?_, ?_⟩
  · obtain ⟨hrefused, -⟩ := reduceRank_in_use hview
      (e := ⟨(View.mk 3 6 1 4 1).window,
        TagSlots.empty.set ⟨1⟩ (some ⟨.client "short", #[Lanes.zero]⟩)⟩)
      rfl hrange rfl (Nat.le_refl 2) (by decide) (.blank 2 (by decide))
    obtain ⟨e', hrun, -, hkept, hpending⟩ := hrefused ⟨1⟩ (by decide) (hbusy _ _) (by
      intro u hu
      apply hidle
      rintro rfl
      exact absurd hu (by decide))
    refine ⟨e', hrun, hkept _ _ ?_, (hpending _).mpr (.inr (by decide))⟩
    rw [TagSlots.get?_set, if_pos rfl]
  · obtain ⟨-, hadopted⟩ := reduceRank_in_use hview
      (e := ⟨(View.mk 3 6 1 4 1).window,
        TagSlots.empty.set ⟨2⟩ (some ⟨.client "long", #[Lanes.zero, Lanes.zero]⟩)⟩)
      rfl hrange rfl (Nat.le_refl 2) (by decide) (.blank 2 (by decide))
    obtain ⟨hlong, -⟩ := hadopted (fun u hu => hidle _ _ _ (hne u hu)) ⟨2⟩ _ rfl
      (by rw [TagSlots.get?_set, if_pos rfl])
    obtain ⟨e', -, data', hrun, -, hreduced, hkept, -⟩ := hlong (by decide)
    exact ⟨e', data', hreport ▸ hrun, hreduced, hkept⟩
  · obtain ⟨-, hadopted⟩ := reduceRank_in_use hview
      (e := ⟨(View.mk 3 6 1 4 1).window,
        TagSlots.empty.set ⟨2⟩ (some ⟨.client "short", #[Lanes.zero]⟩)⟩)
      rfl hrange rfl (Nat.le_refl 2) (by decide) (.blank 2 (by decide))
    apply (hadopted (fun u hu => hidle _ _ _ (hne u hu)) ⟨2⟩ _ rfl
      (by rw [TagSlots.get?_set, if_pos rfl])).2
    decide

end ReplicaSum
