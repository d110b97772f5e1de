import ReplicaSum.Proofs.Reduction

/-!
# Independent ranks

A caller may schedule the ranks of a reduction on its own: it gets a view for each of them and lets
any of them do its part. The parts may be done at the same time, with the copies of the ranks
interleaved in any order, and some may be left out. What is left out is left as it was, and if
nothing is, the outcome is that of `reduceAccumulators`.
-/

namespace ReplicaSum

open ReduceM (Ends)

namespace Context

variable {host : Host} {c : Context} {nRank rank : Nat} {views : List View} {world world₁ : World}

/-- If there are views of the ranks, they are the parts of the view of all records. -/
theorem rankViews_eq_ok (hn : 0 < c.nArray)
    (h : Ends (c.rankViews nRank) world (.ok views) world₁) :
  0 < nRank ∧ (∃ required, c.layout.requiredLen = some required ∧ required ≤ world.data.size) ∧
    views = (c.partition nRank).shares.map c.wholeView.part ∧ world₁.data = world.data
  := by
  obtain ⟨_, _, hchecked, hafter⟩ := h.of_bind
  obtain ⟨hcheck, rfl⟩ := hchecked.of_check
  have hpos : 0 < nRank := by
    rcases Nat.eq_zero_or_pos nRank with rfl | hpos
    · cases hcheck
    · apply hpos
  rw [if_neg (by omega)] at hafter
  obtain ⟨_, _, hget, hafter⟩ := hafter.of_bind
  cases hget
  obtain ⟨v, _, hviewed, hsplit⟩ := hafter.of_bind
  obtain ⟨hview, rfl⟩ := hviewed.of_check
  obtain ⟨rfl, hrequired⟩ := (view_eq_ok_iff hn).mp hview
  obtain ⟨hviews, rfl⟩ := hsplit.unique (ends_splitViews c.wholeView c.blockLen hpos _)
  exact ⟨hpos, hrequired, Except.ok.inj hviews, rfl⟩

/-- Given memory, a rank that does its part on its part of the view of all records ends as it does
at a station with an arena that nobody has used yet. -/
theorem ends_reducePipeline_of_run {v : View} (h₂ : 2 ≤ c.nArray) (hv : c.ShownBy world.data.size v)
    (hr : rank < nRank) {config : Config} (hmemory : Arena.Granted (host.grants rank) c.blockLen)
    {outcome : Except (Failure ReduceError) RankReport} {world' : World}
    (h : Ends (Rank.run
      ⟨(v.part ((c.partition nRank).owned rank)).window, .blank c.blockLen, host.delay rank⟩
      v.nArray config.transfer config.waitTimeoutMs) world outcome world') :
  Ends (reducePipeline host (v.part ((c.partition nRank).owned rank)) c rank nRank config) world
    outcome world'
  := by
  obtain ⟨hof, hnArray, howned⟩ := hv
  obtain ⟨hstart, -⟩ := View.owned_eq_iff.mp howned
  have hle := (c.partition nRank).owned_start_le_stop hr
  have hmatch : ¬ ((v.part ((c.partition nRank).owned rank)).nArray ≠ c.nArray ∨
      (v.part ((c.partition nRank).owned rank)).owned ≠ (c.partition nRank).owned rank) := by
    apply not_or.mpr
    constructor
    · apply not_not.mpr hnArray
    · apply not_not.mpr (congrArg Window.owned (View.window_part hstart hle))
  have hwindow : (v.part ((c.partition nRank).owned rank)).openWindow
      = .ok (v.part ((c.partition nRank).owned rank)).window :=
    View.openWindow_eq_ok hof.nArray_pos hof.step_eq
  rw [hnArray] at h
  apply (Ends.check (checkRank_eq_ok_iff.mpr hr) world).bind
  apply (Ends.insist (Partition.owned?_eq_ok c.isBlockLen.1 hr) world).bind
  rw [if_neg hmatch, if_neg (not_isNoop h₂)]
  apply (Ends.ofLayout hwindow world).bind
  apply (Ends.check (Arena.new_eq_ok hmemory) world).bind h

/-- A rank that does its part on its part of the view of all records reduces its share. -/
theorem ends_reducePipeline {v : View} (h₂ : 2 ≤ c.nArray) (hv : c.ShownBy world.data.size v)
    (hr : rank < nRank) {config : Config}
    (hhost : host.Supports rank c.blockLen config.transfer config.waitTimeoutMs) :
  ∃ world',
    Ends (reducePipeline host (v.part ((c.partition nRank).owned rank)) c rank nRank config) world
      (.ok (.complete ((c.partition nRank).owned rank) c.blockLen)) world' ∧
    Reduced v.stride v.nArray (· ∈ (c.partition nRank).owned rank) world.data world'.data
  := by
  obtain ⟨hstart, hrecord⟩ := View.owned_eq_iff.mp hv.owned_eq
  have hstop : ((c.partition nRank).owned rank).stop ≤ v.nRecord := by
    rw [hrecord]
    apply (c.partition nRank).owned_stop_le hr
  let station : Station :=
    ⟨(v.part ((c.partition nRank).owned rank)).window, .blank c.blockLen, host.delay rank⟩
  have hready : station.Ready c.blockLen config.transfer config.waitTimeoutMs :=
    ⟨Arena.hasRoom_blank c.blockLen, hhost.time⟩
  have hpart : station.window = (v.part ((c.partition nRank).owned rank)).window := rfl
  obtain ⟨world', hends, hreduced⟩ := Rank.ends_run_part hpart hstart (hv.nArray_eq ▸ h₂)
    c.isBlockLen hv.of.fits hready ((c.partition nRank).owned_start_le_stop hr) hstop
  exact ⟨world', ends_reducePipeline_of_run h₂ hv hr hhost.memory hends, hreduced⟩

/-- Some of the ranks that do their parts at the same time reduce their shares, in whatever order
they take their steps. -/
theorem inevitably_pipeline {v : View} (h₂ : 2 ≤ c.nArray) (hv : c.ShownBy world.data.size v)
    {S : Finset (Fin nRank)} {config : Fin nRank → Config}
    (hhost : ∀ r ∈ S,
      host.Supports r.val c.blockLen (config r).transfer (config r).waitTimeoutMs) :
  Inevitably RankProcess.Interleave
    (fun st =>
      (∀ r : S, (st.1 r).result? =
        some (.ok (.complete ((c.partition nRank).owned r.val) c.blockLen))) ∧
      Reduced v.stride v.nArray (fun i => ∃ r ∈ S, i ∈ (c.partition nRank).owned r)
        world.data st.2)
    (fun r : S => .pipeline host (v.part ((c.partition nRank).owned r.val)) c r.val nRank
      (config r.val), world.data)
  := by
  have hn : 0 < v.nArray := hv.of.nArray_pos
  have hinj : Function.Injective fun r : S => r.val.val :=
    Fin.val_injective.comp Subtype.val_injective
  have hinterleaved := RankProcess.inevitably_shares hv.owned_eq hn hv.of.fits
    (fun r : S => r.val.isLt) hinj
    (fun r => RankProcess.serves_pipeline host _ c r.val nRank (config r.val))
    (fun r => RankProcess.realizes_pipeline _ c r.val nRank (hhost r.val r.property).time)
    (fun r => ends_reducePipeline h₂ hv r.val.isLt (hhost r.val r.property))
  apply hinterleaved.mono
  rintro st ⟨hresult, hreduced⟩
  use hresult
  apply hreduced.congr
  intro i
  simp only [Subtype.exists, exists_prop]

/-- The ranks of a reduction may do their parts at the same time, and any of them may be left out.
Each of them takes the steps of `reducePipeline` and reports its share, the records of the shares
are replaced by their sums, and nothing else is changed. If no rank is left out, the reports and the
data are those of `reduceAccumulators`. -/
theorem pipelines_independent (c : Context) (h₂ : 2 ≤ c.nArray) {nRank : Nat} {views : List View}
    {world world₁ : World} (hviews : Ends (c.rankViews nRank) world (.ok views) world₁)
    {host : Host} {S : Finset (Fin nRank)} {config : Fin nRank → Config}
    (hhost : ∀ r ∈ S,
      host.Supports r.val c.blockLen (config r).transfer (config r).waitTimeoutMs) :
  world₁.data = world.data ∧ ∃ hlength : views.length = nRank,
    (∀ r : S,
      (RankProcess.pipeline host (views.get (r.val.cast hlength.symm)) c r.val nRank
        (config r.val)).Realizes
      (reducePipeline host (views.get (r.val.cast hlength.symm)) c r.val nRank (config r.val))) ∧
    Inevitably RankProcess.Interleave
      (fun st =>
        (∀ r : S, (st.1 r).result? =
          some (.ok (.complete ((c.partition nRank).owned r.val) c.blockLen))) ∧
        Reduced c.layout.stride c.nArray (fun i => ∃ r ∈ S, i ∈ (c.partition nRank).owned r)
          world.data st.2 ∧
        (S = Finset.univ → ∀ host' whole, whole.nRank host'.poolSize = nRank →
          host'.Carries whole c.blockLen →
          ∃ reports world', Ends (reduceAccumulators host' c whole) world (.ok reports) world' ∧
            reports.length = nRank ∧ world'.data = st.2 ∧
            ∀ r : S, (st.1 r).result? = reports[r.val.val]?.map .ok))
      (fun r : S => .pipeline host (views.get (r.val.cast hlength.symm)) c r.val nRank
        (config r.val), world.data)
  := by
  have hn : 0 < c.nArray := Nat.lt_of_lt_of_le Nat.two_pos h₂
  obtain ⟨hpos, ⟨required, hrequired, hlen⟩, rfl, hdata⟩ := rankViews_eq_ok hn hviews
  have hlength : ((c.partition nRank).shares.map c.wholeView.part).length = nRank := by
    rw [List.length_map, Partition.length_shares]
    rfl
  have hget : ∀ r : Fin nRank,
      ((c.partition nRank).shares.map c.wholeView.part).get (r.cast hlength.symm)
        = c.wholeView.part ((c.partition nRank).owned r) := by
    intro r
    simp only [Partition.shares, List.get_eq_getElem, List.getElem_map, List.getElem_range]
    rfl
  use hdata, hlength
  constructor
  · intro r
    apply RankProcess.realizes_pipeline _ _ _ _ (hhost r.val r.property).time
  simp only [hget]
  apply (inevitably_pipeline h₂ (shownBy_wholeView hn hrequired hlen) hhost).mono
  rintro st ⟨hresult, hreduced⟩
  use hresult, hreduced
  rintro rfl host' whole rfl hcarries
  obtain ⟨world', hends, hreduced'⟩ :=
    reduces_reduceAccumulators h₂ hrequired hlen hpos hcarries
  use (c.partition (whole.nRank host'.poolSize)).reports, world', hends,
    Partition.length_reports _
  constructor
  · apply hreduced'.unique
    apply hreduced.congr
    intro i
    rw [← (c.partition (whole.nRank host'.poolSize)).exists_mem_owned_iff hpos]
    constructor
    · rintro ⟨r, -, hr⟩
      exact ⟨r, r.isLt, hr⟩
    · rintro ⟨r, hlt, hr⟩
      exact ⟨⟨r, hlt⟩, Finset.mem_univ _, hr⟩
  · intro r
    rw [hresult, Partition.getElem?_reports _ r.val.isLt]
    rfl

/-- The second of two ranks does its part alone, and need not wait for its copy worker. -/
theorem pipelines_independent_second_rank :
  ∃ c : Context, c.layout = ⟨2, 3, 4⟩ ∧ c.blockLen = 2 ∧ 2 ≤ c.nArray ∧
    Ends (c.rankViews 2) ⟨Array.replicate 7 (Lanes.splat 1.5), []⟩
      (.ok [⟨2, 4, 0, 2, 1⟩, ⟨2, 4, 2, 1, 1⟩]) ⟨Array.replicate 7 (Lanes.splat 1.5), []⟩ ∧
    Inevitably RankProcess.Interleave
      (fun st =>
        (∀ r, (st.1 r).result? = some (.ok (.complete ((c.partition 2).owned r.val) 2))) ∧
        Reduced 4 2 (fun i => ∃ r ∈ ({1} : Finset (Fin 2)), i ∈ (c.partition 2).owned r)
          (Array.replicate 7 (Lanes.splat 1.5)) st.2)
      (fun r : ({1} : Finset (Fin 2)) =>
        .pipeline .ample ([⟨2, 4, 0, 2, 1⟩, ⟨2, 4, 2, 1, 1⟩].get r.val) c r.val 2
          { waitTimeoutMs := some 0 },
        Array.replicate 7 (Lanes.splat 1.5))
  := by
  let config : Fin 2 → Config := fun _ => { waitTimeoutMs := some 0 }
  use ⟨⟨2, 3, 4⟩, 2, by decide, by decide, by decide⟩, rfl, rfl, by decide
  have hviews : Ends (rankViews ⟨⟨2, 3, 4⟩, 2, by decide, by decide, by decide⟩ 2)
      ⟨Array.replicate 7 (Lanes.splat 1.5), []⟩ (.ok [⟨2, 4, 0, 2, 1⟩, ⟨2, 4, 2, 1, 1⟩])
      ⟨Array.replicate 7 (Lanes.splat 1.5), []⟩ := rfl
  use hviews
  have hhost : ∀ r ∈ ({1} : Finset (Fin 2)),
      Host.ample.Supports r.val 2 (config r).transfer (config r).waitTimeoutMs :=
    fun r _ => Host.supports_ample r.val 2 _ _
  obtain ⟨-, hlength, -, hends⟩ := pipelines_independent _ (by decide) hviews hhost
  apply hends.mono
  rintro st ⟨hresult, hreduced, -⟩
  exact ⟨hresult, hreduced⟩

end Context

end ReplicaSum
