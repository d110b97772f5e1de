import ReplicaSum.Proofs.Independence

/-!
# Validation

A reduction is refused only by the checks that it makes before any record is moved. Whatever passes
them succeeds: no block, buffer, tag or range is rejected later on, in whatever way the records are
shared out. What is refused is refused with an error of the configuration, and the data is then left
as it was.
-/

namespace ReplicaSum

namespace ReduceM

variable {α β : Type} {m : ReduceM α} {f : α → ReduceM β} {world world₁ : World} {p q : Prop}

/-! ### Actions that fail -/

namespace Ends

theorem refuse (cause : ReduceError) (world : World) :
  Ends (refuse (α := α) cause) world (.error (.error cause)) world
  := rfl

end Ends

/-- Begun on `world`, an action fails just if `p` holds. It then fails with an error of the
configuration and leaves the data as it was. If `q` holds, it leaves the data as it was even when it
succeeds. -/
structure Validates (m : ReduceM α) (world : World) (p q : Prop) : Prop where
  refused : p → ∃ cause world', Ends m world (.error (.error cause)) world' ∧
    cause.category = .configuration ∧ world'.data = world.data
  accepted : ¬ p → ∃ a world', Ends m world (.ok a) world' ∧ (q → world'.data = world.data)

namespace Validates

/-- An action that is refused. -/
theorem of_refuse {cause : ReduceError} (hp : p) (hcause : cause.category = .configuration) :
  Validates (refuse (α := α) cause) world p q
  where
  refused _ := ⟨cause, world, .refuse cause world, hcause, rfl⟩
  accepted h := absurd hp h

/-- An action that succeeds. -/
theorem of_ends {a : α} {world' : World} (hp : ¬ p) (hends : Ends m world (.ok a) world')
    (hq : q → world'.data = world.data) :
  Validates m world p q
  where
  refused h := absurd h hp
  accepted _ := ⟨a, world', hends, hq⟩

/-- An action that goes on after a part that leaves the data alone. -/
theorem after {a : α} (h : Ends m world (.ok a) world₁) (hdata : world₁.data = world.data)
    (hf : Validates (f a) world₁ p q) :
  Validates (m >>= f) world p q
  where
  refused hp := by
    obtain ⟨cause, world', hends, hcause, hdata'⟩ := hf.refused hp
    exact ⟨cause, world', h.bind hends, hcause, hdata'.trans hdata⟩
  accepted hp := by
    obtain ⟨b, world', hends, hq⟩ := hf.accepted hp
    exact ⟨b, world', h.bind hends, fun hq' => (hq hq').trans hdata⟩

/-- An action that checks a result before it goes on. -/
theorem check {result : Except ReduceError α}
    (herror : ∀ cause, result = .error cause → p ∧ cause.category = .configuration)
    (hok : ∀ a, result = .ok a → Validates (f a) world p q) :
  Validates (ReduceM.check result >>= f) world p q
  := by
  cases result with
  | ok a => exact hok a rfl
  | error cause =>
    obtain ⟨hp, hcause⟩ := herror cause rfl
    exact of_refuse hp hcause

end Validates

end ReduceM

open ReduceM (Ends Validates)

namespace Executor

variable {schedule : Schedule} {host : Host} {config : Config} {e : Executor}

/-- An executor that isn't to be had lacks ranks, if there are threads for them. -/
theorem ofConfig_eq_error {cause : ReduceError}
    (hpool : schedule = .parallel → 0 < config.nRank host.poolSize →
      host.poolFault (config.nRank host.poolSize) = none)
    (h : ofConfig schedule host config = .error cause) :
  config.nRank host.poolSize = 0 ∧ cause.category = .configuration
  := by
  rcases Nat.eq_zero_or_pos (config.nRank host.poolSize) with hzero | hpos
  · rw [ofConfig, dif_neg (by omega)] at h
    cases h
    exact ⟨hzero, rfl⟩
  · rw [ofConfig_eq_ok hpos fun hparallel => hpool hparallel hpos] at h
    cases h

/-- An executor that a configuration describes has as many ranks as it says. -/
theorem eq_of_ofConfig (h : ofConfig schedule host config = .ok e) :
  ∃ hrank, e = ⟨schedule, config.nRank host.poolSize, config.transfer, config.waitTimeoutMs, hrank⟩
  := by
  rcases Nat.eq_zero_or_pos (config.nRank host.poolSize) with hzero | hpos
  · rw [ofConfig, dif_neg (by omega)] at h
    cases h
  · use hpos
    simp only [ofConfig, dif_pos hpos, new] at h
    cases hprepare : prepare schedule host (config.nRank host.poolSize) with
    | ok _ =>
      rw [hprepare] at h
      cases h
      rfl
    | error cause =>
      rw [hprepare] at h
      cases h

end Executor

namespace Context

variable {host : Host} {c : Context} {rank nRank len : Nat} {world : World} {q : Prop}

/-- The slices of `len` records that don't hold the arrays of a context: none does if the end of the
last array has no address. -/
def TooShort (c : Context) (len : Nat) : Prop :=
  c.layout.requiredLen = none ∨ ∃ required, c.layout.requiredLen = some required ∧ len < required

/-! ### Checks -/

/-- What is refused about a rank is its number. -/
theorem checkRank_eq_error {cause : ReduceError} (h : checkRank rank nRank = .error cause) :
  nRank ≤ rank ∧ cause.category = .configuration
  := by
  rw [checkRank] at h
  split at h
  · rename_i hzero
    cases h
    exact ⟨hzero ▸ Nat.zero_le rank, rfl⟩
  · split at h
    · cases h
      exact ⟨‹_›, rfl⟩
    · cases h

/-- What is refused about a slice is its length. -/
theorem view_eq_error {cause : ReduceError} (hn : 0 < c.nArray) (h : c.view len = .error cause) :
  c.TooShort len ∧ cause.category = .configuration
  := by
  rw [view] at h
  cases hrequired : c.layout.requiredLen with
  | none =>
    rw [hrequired] at h
    cases h
    exact ⟨.inl hrequired, rfl⟩
  | some required =>
    rw [hrequired] at h
    rcases Nat.lt_or_ge len required with hlen | hlen
    · simp only [if_pos hlen] at h
      cases h
      exact ⟨.inr ⟨required, hrequired, hlen⟩, rfl⟩
    · simp only [if_neg (Nat.not_lt.mpr hlen), ofLayout_eq_ok hn hrequired hlen] at h
      cases h

/-- A slice with a view holds the arrays. -/
theorem not_tooShort {v : View} (hn : 0 < c.nArray) (h : c.view len = .ok v) :
  ¬ c.TooShort len
  := by
  obtain ⟨-, required, hrequired, hlen⟩ := (view_eq_ok_iff hn).mp h
  rintro (hnone | ⟨required', hrequired', hlt⟩)
  · rw [hnone] at hrequired
    cases hrequired
  · rw [hrequired', Option.some.injEq] at hrequired
    omega

/-! ### Entry points -/

/-- An executor takes a view that shows what the context describes, and no other one, unless there
is nothing to combine. -/
theorem validates_driveReduce {e : Executor} {v : View} (hv : v.Of world.data.size)
    (hhost : e.RunsOn host c.blockLen) :
  Validates (e.driveReduce host v c) world
    (2 ≤ c.nArray ∧ (v.nArray ≠ c.nArray ∨ v.owned ≠ ⟨0, c.nRecord⟩)) (c.nArray < 2)
  := by
  rcases Nat.lt_or_ge c.nArray 2 with hlt | h₂
  · rw [Executor.driveReduce, if_pos (isNoop_iff.mpr hlt)]
    apply Validates.of_ends (by omega) (Ends.pure [] world)
    intro _
    rfl
  · by_cases hmatch : v.nArray ≠ c.nArray ∨ v.owned ≠ ⟨0, c.nRecord⟩
    · rw [Executor.driveReduce, if_neg (not_isNoop h₂), if_pos hmatch]
      apply Validates.of_refuse ⟨h₂, hmatch⟩ rfl
    · obtain ⟨hnArray, howned⟩ := not_or.mp hmatch
      obtain ⟨world', hends, -⟩ :=
        e.reduces_driveReduce h₂ ⟨hv, not_not.mp hnArray, not_not.mp howned⟩ hhost
      apply Validates.of_ends (fun hp => hmatch hp.2) hends
      intro hlt
      omega

/-- Arrays are reduced unless the slice is too short or there is no rank to do it. -/
theorem validates_reduceAccumulators {config : Config} (hhost : host.Carries config c.blockLen) :
  Validates (reduceAccumulators host c config) world
    (2 ≤ c.nArray ∧ (c.TooShort world.data.size ∨ config.nRank host.poolSize = 0)) (c.nArray < 2)
  := by
  rcases Nat.lt_or_ge c.nArray 2 with hlt | h₂
  · rw [reduceAccumulators, if_pos (isNoop_iff.mpr hlt)]
    apply Validates.after (Ends.log _ world) rfl
    apply Validates.of_ends (by omega) (Ends.pure [] _)
    intro _
    rfl
  · have hn : 0 < c.nArray := Nat.lt_of_lt_of_le Nat.two_pos h₂
    rw [reduceAccumulators, if_neg (not_isNoop h₂)]
    apply Validates.after (Ends.get world) rfl
    apply Validates.check
    · intro cause herror
      obtain ⟨hshort, hcause⟩ := view_eq_error hn herror
      exact ⟨⟨h₂, .inl hshort⟩, hcause⟩
    intro v hview
    apply Validates.check
    · intro cause herror
      obtain ⟨hzero, hcause⟩ :=
        Executor.ofConfig_eq_error (host.poolFault_of_parallel hhost.pool) herror
      exact ⟨⟨h₂, .inr hzero⟩, hcause⟩
    intro e hexecutor
    obtain ⟨hrank, rfl⟩ := Executor.eq_of_ofConfig hexecutor
    obtain ⟨rfl, required, hrequired, hlen⟩ := (view_eq_ok_iff hn).mp hview
    obtain ⟨world', hends, -⟩ := Executor.reduces_driveReduce h₂
      (shownBy_wholeView hn hrequired hlen) (hhost.runsOn hrank)
    apply Validates.of_ends _ hends
    · intro hlt
      omega
    · rintro ⟨-, hshort | hzero⟩
      · exact not_tooShort hn hview hshort
      · omega

/-- A rank takes a view that shows its share, and no other one. -/
theorem validates_reducePipeline {v : View} (hv : v.Of world.data.size) (nRank : Nat)
    {config : Config} (hhost : host.Supports rank c.blockLen config.transfer config.waitTimeoutMs) :
  Validates (reducePipeline host v c rank nRank config) world
    (nRank ≤ rank ∨ v.nArray ≠ c.nArray ∨ v.owned ≠ (c.partition nRank).owned rank) (c.nArray < 2)
  := by
  rw [reducePipeline]
  apply Validates.check
  · intro cause herror
    obtain ⟨hrank, hcause⟩ := checkRank_eq_error herror
    exact ⟨.inl hrank, hcause⟩
  intro _ hcheck
  have hrank := checkRank_eq_ok_iff.mp hcheck
  apply Validates.after (Ends.insist (Partition.owned?_eq_ok c.isBlockLen.1 hrank) world) rfl
  by_cases hmatch : v.nArray ≠ c.nArray ∨ v.owned ≠ (c.partition nRank).owned rank
  · rw [if_pos hmatch]
    apply Validates.of_refuse (.inr hmatch) rfl
  · have hp : ¬ (nRank ≤ rank ∨ v.nArray ≠ c.nArray ∨ v.owned ≠ (c.partition nRank).owned rank) :=
      not_or.mpr ⟨Nat.not_le.mpr hrank, hmatch⟩
    rw [if_neg hmatch]
    rcases Nat.lt_or_ge c.nArray 2 with hlt | h₂
    · rw [if_pos (isNoop_iff.mpr hlt)]
      apply Validates.of_ends hp (Ends.pure _ world)
      intro _
      rfl
    · rw [if_neg (not_isNoop h₂)]
      apply Validates.after (Ends.ofLayout hv.openWindow_eq_ok world) rfl
      apply Validates.after (Ends.check (Arena.new_eq_ok hhost.memory) world) rfl
      have hnArray : c.nArray ≤ v.window.nArray :=
        Nat.le_of_eq (not_not.mp (not_or.mp hmatch).1).symm
      let station : Station := ⟨v.window, .blank c.blockLen, host.delay rank⟩
      obtain ⟨world', hends, -⟩ := Rank.ends_run (s := station) hv.fits h₂ hnArray c.isBlockLen
        ⟨Arena.hasRoom_blank c.blockLen, hhost.time⟩
      apply Validates.of_ends hp hends
      intro hlt
      omega

/-- There are views of the ranks unless there is no rank or the slice is too short. -/
theorem validates_rankViews (nRank : Nat) :
  Validates (c.rankViews nRank) world
    (nRank = 0 ∨ 1 ≤ c.nArray ∧ c.TooShort world.data.size) True
  := by
  rw [rankViews]
  apply Validates.check
  · intro cause herror
    obtain ⟨hzero, hcause⟩ := checkRank_eq_error herror
    exact ⟨.inl (Nat.le_zero.mp hzero), hcause⟩
  intro _ hcheck
  have hrank := checkRank_eq_ok_iff.mp hcheck
  split
  · apply Validates.of_ends (by omega) (Ends.pure [] world)
    intro _
    rfl
  · have hn : 0 < c.nArray := Nat.pos_of_ne_zero ‹_›
    apply Validates.after (Ends.get world) rfl
    apply Validates.check
    · intro cause herror
      obtain ⟨hshort, hcause⟩ := view_eq_error hn herror
      exact ⟨.inr ⟨hn, hshort⟩, hcause⟩
    intro v hview
    have hsplit := ends_splitViews v c.blockLen hrank world
    apply Validates.of_ends _ hsplit
    · intro _
      rfl
    · rintro (hzero | ⟨-, hshort⟩)
      · omega
      · exact not_tooShort hn hview hshort

/-- On a machine with memory, threads and copy workers in time, a reduction fails only by
validation, and a failure changes nothing. What each entry point refuses is said by a condition on
its arguments; everything else succeeds, also when the ranks of an executor take their steps in any
order. -/
theorem fails_only_by_validation (c : Context) (world : World) :
  (∀ (host : Host) (config : Config), host.Carries config c.blockLen →
      Validates (reduceAccumulators host c config) world
        (2 ≤ c.nArray ∧ (c.TooShort world.data.size ∨ config.nRank host.poolSize = 0))
        (c.nArray < 2))
    ∧ (∀ (e : Executor) (v : View), v.Of world.data.size →
      (∀ host, e.RunsOn host c.blockLen →
        Validates (e.driveReduce host v c) world
          (2 ≤ c.nArray ∧ (v.nArray ≠ c.nArray ∨ v.owned ≠ ⟨0, c.nRecord⟩)) (c.nArray < 2))
      ∧ (2 ≤ c.nArray → v.nArray = c.nArray → v.owned = ⟨0, c.nRecord⟩ →
        ∃ windows world₁, Ends (splitRanks v c.blockLen e.nRank) world (.ok windows) world₁ ∧
          ∀ stations : List Station, stations.map Station.window = windows →
            (∀ s ∈ stations, s.Ready c.blockLen e.transfer e.limit) →
            (∀ r : Fin stations.length,
              (RankProcess.start (stations.get r) c.nArray e.transfer e.limit).Realizes
                (Rank.run (stations.get r) c.nArray e.transfer e.limit)) ∧
            Inevitably RankProcess.Interleave
              (fun st => ∀ r : Fin stations.length, ∃ report, (st.1 r).result? = some (.ok report))
              (fun r => .start (stations.get r) c.nArray e.transfer e.limit, world₁.data)))
    ∧ (∀ (host : Host) (v : View) (rank nRank : Nat) (config : Config), v.Of world.data.size →
      host.Supports rank c.blockLen config.transfer config.waitTimeoutMs →
      Validates (reducePipeline host v c rank nRank config) world
        (nRank ≤ rank ∨ v.nArray ≠ c.nArray ∨ v.owned ≠ (c.partition nRank).owned rank)
        (c.nArray < 2)
      ∧ (RankProcess.pipeline host v c rank nRank config).Realizes
        (reducePipeline host v c rank nRank config))
    ∧ ∀ nRank, Validates (c.rankViews nRank) world
      (nRank = 0 ∨ 1 ≤ c.nArray ∧ c.TooShort world.data.size) True
  := by
  constructor
  · intro host config hhost
    exact validates_reduceAccumulators hhost
  constructor
  · intro e v hv
    constructor
    · intro host hhost
      exact validates_driveReduce hv hhost
    intro h₂ hnArray howned
    have hsplit := ends_splitRanks hv c.blockLen e.nRank_pos
    rw [(View.owned_eq_iff.mp howned).2] at hsplit
    refine ⟨_, _, hsplit, ?_⟩
    intro stations hwindows hready
    have hcrew := Executor.crew_of_shownBy h₂ ⟨hv, hnArray, howned⟩ hwindows hready
    constructor
    · intro r
      apply RankProcess.realizes_start _ _ (hready _ (List.get_mem stations r)).time
    · rw [← hnArray]
      apply hcrew.inevitably_start.mono
      rintro st ⟨hresult, -⟩ r
      exact ⟨_, hresult r⟩
  constructor
  · intro host v rank nRank config hv hhost
    use validates_reducePipeline hv nRank hhost
    apply RankProcess.realizes_pipeline _ _ _ _ hhost.time
  · exact validates_rankViews

/-- Two arrays of three records with a record of padding between them. A slice of six records is too
short for them. In one of seven records, the view of the first two records is refused by
an executor and by the second of two ranks, and accepted by the first one. -/
theorem fails_only_by_validation_two_arrays :
  ∃ c : Context, c.layout = ⟨2, 3, 4⟩ ∧ c.blockLen = 2 ∧
    (∃ cause world',
      Ends (reduceAccumulators .ample c {}) ⟨Array.replicate 6 (Lanes.splat 1.5), []⟩
        (.error (.error cause)) world' ∧
      cause.category = .configuration ∧ world'.data = Array.replicate 6 (Lanes.splat 1.5)) ∧
    (∃ e, Executor.new .serial .ample 2 (by decide) = .ok e ∧ ∃ cause world',
      Ends (e.driveReduce .ample ⟨2, 4, 0, 2, 1⟩ c)
        ⟨Array.replicate 7 (Lanes.splat 1.5), []⟩ (.error (.error cause)) world' ∧
      cause.category = .configuration ∧ world'.data = Array.replicate 7 (Lanes.splat 1.5)) ∧
    (∃ cause world',
      Ends (reducePipeline .ample ⟨2, 4, 0, 2, 1⟩ c 1 2 {})
        ⟨Array.replicate 7 (Lanes.splat 1.5), []⟩ (.error (.error cause)) world' ∧
      cause.category = .configuration ∧ world'.data = Array.replicate 7 (Lanes.splat 1.5)) ∧
    ∃ report world', Ends (reducePipeline .ample ⟨2, 4, 0, 2, 1⟩ c 0 2 {})
      ⟨Array.replicate 7 (Lanes.splat 1.5), []⟩ (.ok report) world'
  := by
  have hwhole : View.Of 7 ⟨2, 4, 0, 3, 1⟩ := .ofLayout (l := ⟨2, 3, 4⟩) rfl
  have hfront : View.Of 7 ⟨2, 4, 0, 2, 1⟩ := .front (k := 2) hwhole rfl
  have hsize : (Array.replicate 7 (Lanes.splat 1.5) : Data).size = 7 := Array.size_replicate
  have hshort := fails_only_by_validation ⟨⟨2, 3, 4⟩, 2, by decide, by decide, by decide⟩
    ⟨Array.replicate 6 (Lanes.splat 1.5), []⟩
  have hlong := fails_only_by_validation ⟨⟨2, 3, 4⟩, 2, by decide, by decide, by decide⟩
    ⟨Array.replicate 7 (Lanes.splat 1.5), []⟩
  rw [hsize] at hlong
  use ⟨⟨2, 3, 4⟩, 2, by decide, by decide, by decide⟩, rfl, rfl
  constructor
  · apply (hshort.1 .ample {} (Host.carries_ample {} 2)).refused
    use by decide, .inl (.inr ⟨7, rfl, ?_⟩)
    rw [Array.size_replicate]
    decide
  constructor
  · use ⟨.serial, 2, .immediate, none, by decide⟩, rfl
    apply ((hlong.2.1 _ _ hfront).1 .ample (Executor.runsOn_ample _ 2)).refused (by decide)
  constructor
  · apply (hlong.2.2.1 .ample _ 1 2 {} hfront (Host.supports_ample 1 2 _ _)).1.refused (by decide)
  · obtain ⟨report, world', hends, -⟩ :=
      (hlong.2.2.1 .ample _ 0 2 {} hfront (Host.supports_ample 0 2 _ _)).1.accepted (by decide)
    exact ⟨report, world', hends⟩

end Context

end ReplicaSum
