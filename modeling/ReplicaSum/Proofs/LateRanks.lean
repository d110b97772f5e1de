import ReplicaSum.Proofs.Impatience
import ReplicaSum.Proofs.Independence

/-!
# Reductions with late ranks

A reduction on a machine with memory and threads, but with copy workers that may be too slow for the
limit of the ranks. It is done in time, or it ends because one of its ranks has given up on a
transfer. Then every record of array `0` holds its sum or is as it was, and nothing else has
changed.
-/

namespace ReplicaSum

open ReduceM (Ends)

/-- How an action turns out that is to reduce the records that satisfy `p`, if it may be `late`: it
has its result, or a transfer has timed out when only some of the records had been reduced. -/
inductive TurnsOut {α : Type} (late : Prop) (result : α) (stride nArray : Nat) (p : Nat → Prop)
    (before after : Data) : Except (Failure ReduceError) α → Prop where
  | inTime (h : Reduced stride nArray p before after) :
      TurnsOut late result stride nArray p before after (.ok result)
  | timedOut {tag : Tag} {q : Nat → Prop} (hlate : late) (hq : ∀ i, q i → p i)
      (h : Reduced stride nArray q before after) :
      TurnsOut late result stride nArray p before after
        (.error (.error (.transfer (.timedOut tag))))

/-- Begun on `world`, an action reduces the records that satisfy `p` and has a given result, or it
is late. -/
def ReduceM.ReducesOrIsLate {α : Type} (m : ReduceM α) (late : Prop) (result : α)
    (stride nArray : Nat) (p : Nat → Prop) (world : World) : Prop :=
  ∃ outcome world', Ends m world outcome world' ∧
    TurnsOut late result stride nArray p world.data world'.data outcome

variable {stride nArray : Nat} {late : Prop}

/-- However an action turns out, it has reduced some of the records. -/
theorem TurnsOut.exists_reduced {α : Type} {result : α} {p : Nat → Prop} {before after : Data}
    {outcome : Except (Failure ReduceError) α}
    (h : TurnsOut late result stride nArray p before after outcome) :
  ∃ q : Nat → Prop, (∀ i, q i → p i) ∧ Reduced stride nArray q before after
  := by
  cases h with
  | inTime h => exact ⟨p, fun _ => id, h⟩
  | timedOut _ hq h => exact ⟨_, hq, h⟩

/-- Some records of a span can be reduced before some of those behind it. -/
theorem Reduced.trans_behind {s : Span} {stop : Nat} {q q' : Nat → Prop} {d e f : Data}
    (h : Reduced stride nArray q d e) (h' : Reduced stride nArray q' e f) (hn : 0 < nArray)
    (hq : ∀ i, q i → i ∈ s) (hq' : ∀ i, q' i → s.stop ≤ i ∧ i < stop)
    (hle : s.start ≤ s.stop) (hstop : s.stop ≤ stop) :
  ∃ q'' : Nat → Prop, (∀ i, q'' i → s.start ≤ i ∧ i < stop) ∧ Reduced stride nArray q'' d f
  := by
  refine ⟨fun i => q i ∨ q' i, ?_, h.trans h' hn ?_⟩
  · rintro i (hi | hi)
    · have := Span.mem_iff.mp (hq i hi)
      omega
    · have := hq' i hi
      omega
  · intro i hi a _ hmem
    have := (hq' i hi).1
    have := (Span.mem_iff.mp (hq _ hmem)).2
    omega

/-! ### Running the ranks -/

/-- What a rank needs to reduce a share of a whole view in blocks of `blockLen` records: a window on
the part of the view that belongs to the share, and room in its arena. Its copy worker may be
`late`. -/
structure Station.MayBeLate (station : Station) (v : View) (blockLen : Nat)
    (transfer : TransferMode) (limit : Option Nat) (late : Prop) (share : Span) : Prop where
  window_eq : station.window = (v.part share).window
  room : station.arena.HasRoom blockLen
  late_of : ¬ transfer.InTime limit station.delay → late

/-- Such a rank reduces its share, or is late. -/
theorem Station.MayBeLate.ends_run {station : Station} {v : View} {blockLen : Nat}
    {transfer : TransferMode} {limit : Option Nat} {share : Span} {world : World}
    (h : station.MayBeLate v blockLen transfer limit late share) (hv : v.start = 0)
    (h₂ : 2 ≤ v.nArray) (hb : IsBlockLen blockLen) (hfits : v.window.Fits world.data.size)
    (hle : share.start ≤ share.stop) (hstop : share.stop ≤ v.nRecord) :
  ∃ outcome world', Ends (Rank.run station v.nArray transfer limit) world outcome world' ∧
    TurnsOut late (.complete share blockLen) v.stride v.nArray (· ∈ share) world.data world'.data
      outcome ∧
    v.window.Fits world'.data.size
  := by
  obtain ⟨window, arena, delay⟩ := station
  obtain rfl : window = ⟨share, v.nArray, v.stride⟩ := h.window_eq.trans (View.window_part hv hle)
  rcases Rank.ends_run_or_timedOut transfer limit (View.fits_share hfits hv hstop) h₂
    (Nat.le_refl _) hb h.room
    with ⟨world', hends, hreduced⟩ | ⟨hlate, tag, world', stored, hends, hbegins, hreduced⟩
  · refine ⟨_, world', hends, .inTime hreduced, ?_⟩
    rw [hreduced.size_eq]
    apply hfits
  · refine ⟨_, world', hends, .timedOut (h.late_of hlate) ?_ hreduced, ?_⟩
    · rintro i ⟨b, hmem, hi⟩
      have := Span.blocks_tiles.bounds (hbegins.subset hmem)
      rw [Span.mem_iff] at hi ⊢
      simp only at this
      omega
    · rw [hreduced.size_eq]
      apply hfits

namespace Executor

variable {e : Executor} {v : View} {blockLen : Nat} {world : World}

/-- Ranks that are run in turn reduce their shares, or one of them is late and the ones behind it
are not run. -/
theorem reducesOrIsLate_runInTurn {ranks : List (Span × Station)} {start stop : Nat}
    (hv : v.start = 0) (h₂ : 2 ≤ v.nArray) (hb : IsBlockLen blockLen)
    (hfits : v.window.Fits world.data.size)
    (hranks : ∀ r ∈ ranks, r.2.MayBeLate v blockLen e.transfer e.limit late r.1)
    (htiles : Span.Tiles start stop (ranks.map Prod.fst)) (hstop : stop ≤ v.nRecord) :
  (e.runInTurn v.nArray (ranks.map Prod.snd)).ReducesOrIsLate late
    (ranks.map fun r => .complete r.1 blockLen) v.stride v.nArray (fun i => start ≤ i ∧ i < stop)
    world
  := by
  have hn : 0 < v.nArray := Nat.lt_of_lt_of_le Nat.two_pos h₂
  induction ranks generalizing start world with
  | nil =>
    cases htiles
    refine ⟨_, world, Ends.pure [] world, .inTime (Reduced.of_forall_not ?_ _)⟩
    omega
  | cons r ranks ih =>
    obtain ⟨s, station⟩ := r
    cases htiles with
    | cons hle htail =>
      have hle : s.start ≤ s.stop := hle
      have hmid : s.stop ≤ stop := htail.le
      obtain ⟨outcome, world₁, hrank, hturns, hfits₁⟩ :=
        (hranks _ List.mem_cons_self).ends_run hv h₂ hb hfits hle (Nat.le_trans hmid hstop)
      cases hturns with
      | timedOut hlate hq h =>
        refine ⟨_, world₁, hrank.bind_error, .timedOut hlate ?_ h⟩
        intro i hi
        obtain ⟨hstart, hlt⟩ := Span.mem_iff.mp (hq i hi)
        exact ⟨hstart, Nat.lt_of_lt_of_le hlt hmid⟩
      | inTime h =>
        obtain ⟨outcome, world', hrest, hturns⟩ :=
          ih hfits₁ (fun r hr => hranks r (List.mem_cons_of_mem _ hr)) htail
        cases hturns with
        | inTime h' =>
          exact ⟨_, world', hrank.bind (hrest.bind (Ends.pure _ _)),
            .inTime (h.cons h' hn hle hmid)⟩
        | timedOut hlate hq' h' =>
          obtain ⟨q'', hq'', h''⟩ := h.trans_behind h' hn (fun _ => id) hq' hle hmid
          exact ⟨_, world', hrank.bind hrest.bind_error, .timedOut hlate hq'' h''⟩

/-- Ranks that are run up to their ends reduce their shares, or some of them are late. The first of
these says how the reduction turns out. -/
theorem reducesOrIsLate_runToEnds {ranks : List (Span × Station)} {start stop : Nat}
    (hv : v.start = 0) (h₂ : 2 ≤ v.nArray) (hb : IsBlockLen blockLen)
    (hfits : v.window.Fits world.data.size)
    (hranks : ∀ r ∈ ranks, r.2.MayBeLate v blockLen e.transfer e.limit late r.1)
    (htiles : Span.Tiles start stop (ranks.map Prod.fst)) (hstop : stop ≤ v.nRecord) :
  ∃ outcomes outcome world',
    Ends (e.runToEnds v.nArray (ranks.map Prod.snd)) world (.ok outcomes) world' ∧
    (∀ world'', Ends (ReduceM.ofAttempts outcomes) world'' outcome world'') ∧
    TurnsOut late (ranks.map fun r => .complete r.1 blockLen) v.stride v.nArray
      (fun i => start ≤ i ∧ i < stop) world.data world'.data outcome
  := by
  have hn : 0 < v.nArray := Nat.lt_of_lt_of_le Nat.two_pos h₂
  induction ranks generalizing start world with
  | nil =>
    cases htiles
    refine ⟨[], _, world, Ends.pure [] world, Ends.pure [], .inTime (Reduced.of_forall_not ?_ _)⟩
    omega
  | cons r ranks ih =>
    obtain ⟨s, station⟩ := r
    cases htiles with
    | cons hle htail =>
      have hle : s.start ≤ s.stop := hle
      have hmid : s.stop ≤ stop := htail.le
      obtain ⟨outcome, world₁, hrank, hturns, hfits₁⟩ :=
        (hranks _ List.mem_cons_self).ends_run hv h₂ hb hfits hle (Nat.le_trans hmid hstop)
      obtain ⟨outcomes, others, world', hrest, hof, hturns'⟩ :=
        ih hfits₁ (fun r hr => hranks r (List.mem_cons_of_mem _ hr)) htail
      have hends : Ends (e.runToEnds v.nArray (station :: ranks.map Prod.snd)) world
          (.ok (outcome :: outcomes)) world' :=
        hrank.attempt.bind (hrest.bind (Ends.pure _ _))
      cases hturns with
      | timedOut hlate hq h =>
        obtain ⟨q', hq', h'⟩ := hturns'.exists_reduced
        obtain ⟨q'', hq'', h''⟩ := h.trans_behind h' hn hq hq' hle hmid
        exact ⟨_, _, world', hends, Ends.throw _, .timedOut hlate hq'' h''⟩
      | inTime h =>
        cases hturns' with
        | inTime h' =>
          exact ⟨_, _, world', hends, fun w => (hof w).bind (Ends.pure _ w),
            .inTime (h.cons h' hn hle hmid)⟩
        | timedOut hlate hq' h' =>
          obtain ⟨q'', hq'', h''⟩ := h.trans_behind h' hn (fun _ => id) hq' hle hmid
          exact ⟨_, _, world', hends, fun w => (hof w).bind_error, .timedOut hlate hq'' h''⟩

/-- With either schedule, ranks reduce their shares, or some of them are late. -/
theorem reducesOrIsLate_runRanks {ranks : List (Span × Station)} {start stop : Nat}
    (hv : v.start = 0) (h₂ : 2 ≤ v.nArray) (hb : IsBlockLen blockLen)
    (hfits : v.window.Fits world.data.size)
    (hranks : ∀ r ∈ ranks, r.2.MayBeLate v blockLen e.transfer e.limit late r.1)
    (htiles : Span.Tiles start stop (ranks.map Prod.fst)) (hstop : stop ≤ v.nRecord) :
  (e.runRanks v.nArray (ranks.map Prod.snd)).ReducesOrIsLate late
    (ranks.map fun r => .complete r.1 blockLen) v.stride v.nArray (fun i => start ≤ i ∧ i < stop)
    world
  := by
  rw [runRanks]
  cases e.schedule with
  | serial => exact reducesOrIsLate_runInTurn hv h₂ hb hfits hranks htiles hstop
  | parallel =>
    obtain ⟨outcomes, outcome, world', hends, hof, hturns⟩ :=
      reducesOrIsLate_runToEnds hv h₂ hb hfits hranks htiles hstop
    exact ⟨outcome, world', hends.bind (hof world'), hturns⟩

/-- An executor reduces the arrays of any view that shows what the context describes, or is late. -/
theorem reducesOrIsLate_driveReduce (e : Executor) {host : Host} {c : Context}
    (h₂ : 2 ≤ c.nArray) (hv : c.ShownBy world.data.size v)
    (hmemory : ∀ k < e.nRank, (e.schedule = .serial → k = 0) →
      Arena.Granted (host.grants k) c.blockLen) :
  (e.driveReduce host v c).ReducesOrIsLate
    (¬ ∀ k < e.nRank, e.transfer.InTime e.limit (host.delay k)) (c.partition e.nRank).reports
    v.stride c.nArray (· < c.nRecord) world
  := by
  obtain ⟨stations, world₁, hdata, hwindows, hstations, hdrive⟩ := e.exists_stations h₂ hv hmemory
  obtain ⟨ranks, hshares, rfl, hranks⟩ := exists_ranks hwindows
  obtain ⟨hstart, hrecord⟩ := View.owned_eq_iff.mp hv.owned_eq
  have htiles : Span.Tiles 0 c.nRecord (ranks.map Prod.fst) := by
    rw [hshares]
    exact (c.partition e.nRank).shares_tiles e.nRank_pos
  have hlate : ∀ r ∈ ranks, r.2.MayBeLate v c.blockLen e.transfer e.limit
      (¬ ∀ k < e.nRank, e.transfer.InTime e.limit (host.delay k)) r.1 := by
    intro r hr
    obtain ⟨hwindow, hmem⟩ := hranks r hr
    obtain ⟨hroom, k, hk, hdelay⟩ := hstations r.2 hmem
    use hwindow, hroom
    rw [hdelay]
    exact fun hlate htime => hlate (htime k hk)
  rw [← hdata] at hv
  obtain ⟨outcome, world', hends, hturns⟩ := reducesOrIsLate_runRanks hstart (hv.nArray_eq ▸ h₂)
    c.isBlockLen hv.of.fits hlate htiles (Nat.le_of_eq hrecord.symm)
  have hreports := Partition.map_complete hshares
  simp only [Context.partition] at hreports
  rw [hv.nArray_eq, hdata, hreports] at hturns
  simp only [Nat.zero_le, true_and] at hturns
  rw [hv.nArray_eq] at hends
  exact ⟨outcome, world', hdrive _ _ hends, hturns⟩

end Executor

/-- Given memory and threads, `reduceAccumulators` reduces the arrays of a context in every slice of
the required length, or it ends because a transfer has timed out. However it ends, every record of
array `0` holds its sum or is as it was, and nothing else has changed. It is never late if all copy
workers are in time. -/
theorem Context.reduction_sums_or_late (c : Context) (h₂ : 2 ≤ c.nArray) (world : World)
    (host : Host) (config : Config) {required : Nat}
    (hrequired : c.layout.requiredLen = some required) (hlen : required ≤ world.data.size)
    (hrank : 0 < config.nRank host.poolSize)
    (hpool : 1 < config.nRank host.poolSize → host.poolFault (config.nRank host.poolSize) = none)
    (hmemory : ∀ k < config.nRank host.poolSize, Arena.Granted (host.grants k) c.blockLen) :
  (reduceAccumulators host c config).ReducesOrIsLate
    (¬ ∀ k < config.nRank host.poolSize,
      config.transfer.InTime config.waitTimeoutMs (host.delay k))
    (c.partition (config.nRank host.poolSize)).reports c.layout.stride c.nArray (· < c.nRecord)
    world
  := by
  have hn : 0 < c.nArray := Nat.lt_of_lt_of_le Nat.two_pos h₂
  let e : Executor :=
    ⟨if config.nRank host.poolSize = 1 then .serial else .parallel, config.nRank host.poolSize,
      config.transfer, config.waitTimeoutMs, hrank⟩
  obtain ⟨outcome, world', hends, hturns⟩ := e.reducesOrIsLate_driveReduce h₂
    (shownBy_wholeView hn hrequired hlen) fun k hk _ => hmemory k hk
  exact ⟨outcome, world', ends_reduceAccumulators h₂ hrequired hlen hrank hpool hends, hturns⟩

/-- Given memory, a rank that does its part on its view reduces its share, or it ends because a
transfer has timed out and only some of its records have been reduced. -/
theorem Context.pipeline_sums_or_late (c : Context) (h₂ : 2 ≤ c.nArray) {nRank rank : Nat}
    {views : List View} {world world₁ : World}
    (hviews : Ends (c.rankViews nRank) world (.ok views) world₁) {v : View}
    (hv : views[rank]? = some v) {host : Host} (config : Config)
    (hmemory : Arena.Granted (host.grants rank) c.blockLen) :
  (reducePipeline host v c rank nRank config).ReducesOrIsLate
    (¬ config.transfer.InTime config.waitTimeoutMs (host.delay rank))
    (.complete ((c.partition nRank).owned rank) c.blockLen) c.layout.stride c.nArray
    (· ∈ (c.partition nRank).owned rank) world₁
  := by
  have hn : 0 < c.nArray := Nat.lt_of_lt_of_le Nat.two_pos h₂
  obtain ⟨hpos, ⟨required, hrequired, hlen⟩, rfl, hdata⟩ := rankViews_eq_ok hn hviews
  rw [← hdata] at hlen
  have hshown := shownBy_wholeView hn hrequired hlen
  have hr : rank < nRank := by
    obtain ⟨hlt, -⟩ := List.getElem?_eq_some_iff.mp hv
    rw [List.length_map, Partition.length_shares] at hlt
    apply hlt
  have hget : ((c.partition nRank).shares.map c.wholeView.part)[rank]?
      = some (c.wholeView.part ((c.partition nRank).owned rank)) := by
    have hlt : rank < (c.partition nRank).nRank := hr
    rw [List.getElem?_map, Partition.shares, List.getElem?_map, List.getElem?_range hlt]
    rfl
  obtain rfl := Option.some.inj (hv.symm.trans hget)
  obtain ⟨hstart, hrecord⟩ := View.owned_eq_iff.mp hshown.owned_eq
  let station : Station := ⟨(c.wholeView.part ((c.partition nRank).owned rank)).window,
    .blank c.blockLen, host.delay rank⟩
  have hlate : station.MayBeLate c.wholeView c.blockLen config.transfer config.waitTimeoutMs
      (¬ config.transfer.InTime config.waitTimeoutMs (host.delay rank))
      ((c.partition nRank).owned rank) := ⟨rfl, Arena.hasRoom_blank c.blockLen, id⟩
  have hstop : ((c.partition nRank).owned rank).stop ≤ c.wholeView.nRecord := by
    rw [hrecord]
    apply (c.partition nRank).owned_stop_le hr
  obtain ⟨outcome, world', hends, hturns, -⟩ := hlate.ends_run hstart h₂ c.isBlockLen
    hshown.of.fits ((c.partition nRank).owned_start_le_stop hr) hstop
  exact ⟨outcome, world', ends_reducePipeline_of_run h₂ hshown hr hmemory hends, hturns⟩

end ReplicaSum
