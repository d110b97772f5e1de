import ReplicaSum.Proofs.Balance
import ReplicaSum.Proofs.Reduction

/-!
# Idle ranks

How many ranks own no record. Going up by one rank, the number of blocks before a rank either stays
the same, and then the rank owns no whole block, or goes up. If there are no more blocks than ranks,
it never goes up by more than one, so as many ranks own a block as there are blocks. The last rank
also owns the tail; that makes a difference just if it owns no whole block, which is so if there are
at least two ranks for each block. A warning of the number of idle ranks is logged once, when a view
is split, and never by a rank.
-/

namespace ReplicaSum

open ReduceM (Ends)

namespace Partition

variable (p : Partition) {r : Nat}

/-! ### Ranks without a whole block -/

/-- What a rank owns apart from whole blocks: the last rank owns the tail. -/
theorem owned_length_mod (hr : r < p.nRank) :
  (p.owned r).length % p.blockLen = if r + 1 = p.nRank then p.nRecord % p.blockLen else 0
  := by
  split
  · rename_i hlast
    rw [p.owned_length_last hlast]
    apply Nat.sub_mul_mod
    apply p.blockLen_mul_firstBlock_le hr.le (by omega)
  · rw [p.owned_length (by omega)]
    apply Nat.mul_mod_right

/-- A rank is idle if it owns neither a whole block nor a tail. -/
theorem isEmpty_owned_iff (hb : 0 < p.blockLen) (hr : r < p.nRank) :
  (p.owned r).isEmpty = true
    ↔ p.firstBlock (r + 1) = p.firstBlock r ∧ (r + 1 = p.nRank → p.nRecord % p.blockLen = 0)
  := by
  have hdiv := p.owned_length_div hb hr
  have hmod := p.owned_length_mod hr
  have hmono : p.firstBlock r ≤ p.firstBlock (r + 1) := p.firstBlock_mono (Nat.le_succ r)
  have hsplit := Nat.div_add_mod (p.owned r).length p.blockLen
  rw [Span.isEmpty_iff]
  constructor
  · intro hlength
    rw [hlength, Nat.zero_div] at hdiv
    rw [hlength, Nat.zero_mod] at hmod
    constructor
    · omega
    · intro hlast
      rw [if_pos hlast] at hmod
      exact hmod.symm
  · rintro ⟨hstill, htail⟩
    rw [hstill, Nat.sub_self] at hdiv
    have hzero : (p.owned r).length % p.blockLen = 0 := by
      rw [hmod]
      split
      · exact htail ‹_›
      · rfl
    rw [← hsplit, hdiv, hzero, Nat.mul_zero]

/-- A number that goes up by at most one at each step stays the same at all other steps. -/
theorem countP_still (f : Nat → Nat) (n : Nat)
    (hstep : ∀ r < n, f r ≤ f (r + 1) ∧ f (r + 1) ≤ f r + 1) :
  (List.range n).countP (fun r => f (r + 1) = f r) + f n = n + f 0
  := by
  induction n with
  | zero => simp
  | succ n ih =>
    obtain ⟨hle, hge⟩ := hstep n (Nat.lt_succ_self n)
    have hprev := ih fun r hr => hstep r (by omega)
    rw [List.range_succ, List.countP_append, List.countP_singleton]
    split
    · rename_i hstill
      have := of_decide_eq_true hstill
      omega
    · rename_i hmoved
      have : f (n + 1) ≠ f n := by simpa using hmoved
      omega

/-- As many ranks own a whole block as there are blocks, or else all of them do. -/
theorem countP_firstBlock_still (hn : 0 < p.nRank) :
  (List.range p.nRank).countP (fun r => p.firstBlock (r + 1) = p.firstBlock r)
      + min p.nBlock p.nRank
    = p.nRank
  := by
  rcases le_or_gt p.nBlock p.nRank with hfew | hmany
  · have hstep : ∀ r < p.nRank, p.firstBlock r ≤ p.firstBlock (r + 1)
        ∧ p.firstBlock (r + 1) ≤ p.firstBlock r + 1 := by
      intro r _
      obtain ⟨-, hhi⟩ := p.firstBlock_step_bounds hn r
      have hlt : (p.firstBlock (r + 1) - p.firstBlock r) * p.nRank < 2 * p.nRank := by omega
      have := Nat.lt_of_mul_lt_mul_right hlt
      use p.firstBlock_mono (Nat.le_succ r)
      omega
    have hcount := countP_still p.firstBlock p.nRank hstep
    rw [p.firstBlock_nRank hn, p.firstBlock_zero hn, Nat.add_zero] at hcount
    rw [Nat.min_eq_left hfew, hcount]
  · have hnone : (List.range p.nRank).countP (fun r => p.firstBlock (r + 1) = p.firstBlock r)
        = 0 := by
      apply List.countP_eq_zero.mpr
      intro r _ hstill
      obtain ⟨hlo, -⟩ := p.firstBlock_step_bounds hn r
      rw [of_decide_eq_true hstill, Nat.sub_self, Nat.zero_mul] at hlo
      omega
    rw [hnone, Nat.min_eq_right hmany.le, Nat.zero_add]

/-- The last rank owns no whole block if there are at least two ranks for each block. -/
theorem firstBlock_last_eq_iff (hlast : r + 1 = p.nRank) :
  p.firstBlock (r + 1) = p.firstBlock r ↔ 2 * p.nBlock ≤ p.nRank
  := by
  have hn : 0 < p.nRank := by omega
  obtain ⟨hle, hlt⟩ := p.firstBlock_bounds hn r
  have hmono : p.firstBlock r ≤ p.firstBlock (r + 1) := p.firstBlock_mono (Nat.le_succ r)
  rw [hlast, p.firstBlock_nRank hn] at hmono ⊢
  have hwhole : p.nBlock * p.nRank = p.nBlock * r + p.nBlock := by rw [← hlast, Nat.mul_succ]
  constructor
  · intro hstill
    rw [← hstill, hwhole] at hle
    omega
  · intro hfew
    by_contra hne
    have hsucc : (p.firstBlock r + 1) * p.nRank ≤ p.nBlock * p.nRank :=
      Nat.mul_le_mul_right _ (by omega)
    rw [Nat.succ_mul] at hsucc
    omega

/-- The ranks that own no whole block are the idle ones, and the last one if it owns nothing but the
tail. -/
theorem nIdle_add_tail (hb : 0 < p.blockLen) (hn : 0 < p.nRank) (h : 0 < p.nRecord) :
  p.nIdle + (if 0 < p.nRecord % p.blockLen ∧ 2 * p.nBlock ≤ p.nRank then 1 else 0)
    = (List.range p.nRank).countP (fun r => p.firstBlock (r + 1) = p.firstBlock r)
  := by
  obtain ⟨m, hm⟩ : ∃ m, m + 1 = p.nRank := ⟨p.nRank - 1, by omega⟩
  have hrange : List.range p.nRank = List.range m ++ [m] := by rw [← hm, List.range_succ]
  have hinit : (List.range m).countP (fun r => (p.owned r).isEmpty)
      = (List.range m).countP (fun r => p.firstBlock (r + 1) = p.firstBlock r) := by
    apply List.countP_congr
    intro r hr
    have hlt : r < m := List.mem_range.mp hr
    rw [p.isEmpty_owned_iff hb (by omega), decide_eq_true_iff]
    exact ⟨And.left, fun hstill => ⟨hstill, by omega⟩⟩
  have hlast : (p.owned m).isEmpty = true
      ↔ 2 * p.nBlock ≤ p.nRank ∧ p.nRecord % p.blockLen = 0 := by
    rw [p.isEmpty_owned_iff hb (by omega), p.firstBlock_last_eq_iff hm]
    simp only [hm, true_implies]
  have hidle : p.nIdle = (List.range m).countP (fun r => (p.owned r).isEmpty)
      + if 2 * p.nBlock ≤ p.nRank ∧ p.nRecord % p.blockLen = 0 then 1 else 0 := by
    rw [nIdle, if_neg (by omega), shares, List.countP_map, hrange, List.countP_append,
      List.countP_singleton]
    simp only [Function.comp_apply, hlast, Function.comp_def]
  rw [hidle, hinit, hrange, List.countP_append, List.countP_singleton, Nat.add_assoc]
  simp only [decide_eq_true_iff, p.firstBlock_last_eq_iff hm]
  congr 1
  split <;> split <;> split <;> omega

/-- The ranks that own something are those that own a whole block, and the last one if it owns
nothing but the tail. -/
theorem nIdle_add (hb : 0 < p.blockLen) (hn : 0 < p.nRank) (h : 0 < p.nRecord) :
  p.nIdle + (min p.nBlock p.nRank
      + if 0 < p.nRecord % p.blockLen ∧ 2 * p.nBlock ≤ p.nRank then 1 else 0)
    = p.nRank
  := by
  have htail := p.nIdle_add_tail hb hn h
  have hstill := p.countP_firstBlock_still hn
  omega

end Partition

/-! ### Warnings -/

namespace ReduceM

variable {α β : Type} {m : ReduceM α} {f : α → ReduceM β} {a : α} {world world₁ : World}
variable {warnings : List Event}

/-- The warnings among the events that an action logs are the given ones, in whatever way it
ends. -/
def Warns (m : ReduceM α) (world : World) (warnings : List Event) : Prop :=
  ∃ events, (m.run.run world).2.events = world.events ++ events ∧
    events.filter (·.level = .warn) = warnings

/-- An action that logs no warning. -/
def Quiet (m : ReduceM α) : Prop := ∀ world, m.Warns world []

namespace Quiet

theorem pure (a : α) :
  Quiet (pure a)
  := fun world => ⟨[], (List.append_nil world.events).symm, rfl⟩

theorem throw (failure : Failure ReduceError) :
  Quiet (MonadExcept.throw failure : ReduceM α)
  := fun world => ⟨[], (List.append_nil world.events).symm, rfl⟩

theorem get :
  Quiet MonadState.get
  := fun world => ⟨[], (List.append_nil world.events).symm, rfl⟩

theorem log {e : Event} (he : e.level ≠ .warn) :
  Quiet (log e)
  := by
  intro world
  use [e], rfl
  simp [he]

/-- An action is quiet if its parts are. -/
theorem bind (h : Quiet m) (hf : ∀ a, Quiet (f a)) :
  Quiet (m >>= f)
  := by
  intro world
  obtain ⟨events, hevents, hquiet⟩ := h world
  rw [Warns, ExceptT.run_bind, StateT.run_bind]
  generalize m.run.run world = ended at hevents
  obtain ⟨outcome, world₁⟩ := ended
  cases outcome with
  | error failure => exact ⟨events, hevents, hquiet⟩
  | ok a =>
    obtain ⟨events₁, hevents₁, hquiet₁⟩ := hf a world₁
    use events ++ events₁
    constructor
    · rw [← List.append_assoc, ← hevents]
      apply hevents₁
    · rw [List.filter_append, hquiet, hquiet₁, List.append_nil]

theorem check (result : Except ReduceError α) :
  Quiet (check result)
  := by
  cases result with
  | ok a => apply pure a
  | error cause => apply throw

theorem ofLayout (result : Except (Failure LayoutError) α) :
  Quiet (ofLayout result)
  := by
  cases result with
  | ok a => apply pure a
  | error failure => apply throw

theorem attempt (hm : Quiet m) :
  Quiet (attempt m)
  := by
  intro world
  obtain ⟨events, hevents, hquiet⟩ := hm world
  exact ⟨events, hevents, hquiet⟩

theorem ofAttempts (results : List (Except (Failure ReduceError) α)) :
  Quiet (ofAttempts results)
  := by
  induction results with
  | nil => apply pure
  | cons result rest ih =>
    cases result with
    | error failure => apply throw
    | ok a =>
      apply ih.bind
      intro as
      apply pure

theorem ofRank (result : Except (Failure RankError) α) :
  Quiet (ofRank result)
  := by
  cases result with
  | ok a => apply pure a
  | error failure => apply throw

end Quiet

theorem Warns.of_ends {events : List Event} (hends : Ends m world (.ok a) world₁)
    (hevents : world₁.events = world.events ++ events)
    (hwarnings : events.filter (·.level = .warn) = warnings) :
  m.Warns world warnings
  := by
  use events
  rw [hends]
  exact ⟨hevents, hwarnings⟩

/-- An action whose first part has ended warns of what its parts warn of. -/
theorem Warns.bind {warnings₁ : List Event} (h : m.Warns world warnings)
    (hends : Ends m world (.ok a) world₁) (hf : (f a).Warns world₁ warnings₁) :
  (m >>= f).Warns world (warnings ++ warnings₁)
  := by
  obtain ⟨events, hevents, rfl⟩ := h
  obtain ⟨events₁, hevents₁, rfl⟩ := hf
  use events ++ events₁
  constructor
  · rw [hends] at hevents
    rw [ExceptT.run_bind, StateT.run_bind, hends, ← List.append_assoc, ← hevents]
    apply hevents₁
  · apply List.filter_append

/-- What comes after a quiet part gives the warnings. -/
theorem Quiet.after (h : Quiet m) (hends : Ends m world (.ok a) world₁)
    (hf : (f a).Warns world₁ warnings) :
  (m >>= f).Warns world warnings
  := (h world).bind hends hf

/-- What comes before a quiet part gives the warnings, whether the quiet part is reached or not. -/
theorem Warns.before_quiet (h : m.Warns world warnings) (hf : ∀ a, Quiet (f a)) :
  (m >>= f).Warns world warnings
  := by
  rcases hm : m.run.run world with ⟨outcome, world₁⟩
  cases outcome with
  | ok a =>
    have hwarns := h.bind hm (hf a world₁)
    rw [List.append_nil] at hwarns
    exact hwarns
  | error failure =>
    obtain ⟨events, hevents, hwarnings⟩ := h
    use events
    rw [hm] at hevents
    rw [ExceptT.run_bind, StateT.run_bind, hm]
    exact ⟨hevents, hwarnings⟩

end ReduceM

open ReduceM (Warns Quiet)

namespace Rank

variable {α : Type}

theorem quiet_runImmediate (w : Window) (s : RankM α) :
  Quiet (runImmediate w s)
  := by
  intro world
  apply Quiet.get.after (Ends.get world)
  generalize s.run.run (Immediate.new w) world.data = ran
  obtain ⟨result, e, data⟩ := ran
  have hset : Ends (set ({ world with data } : World)) world (.ok ()) { world with data } :=
    Ends.set world _
  apply (Warns.of_ends hset (List.append_nil world.events).symm rfl).bind hset
  apply Quiet.ofRank

theorem quiet_runThreaded (w : Window) (pacing : Pacing) (s : RankM α) :
  Quiet (runThreaded w pacing s)
  := by
  intro world
  apply Quiet.get.after (Ends.get world)
  generalize s.run.run (Threaded.paced w pacing) world.data = ran
  obtain ⟨result, e, data⟩ := ran
  have hset := Ends.set world
    ⟨(e.close data).2, world.events ++ [.workerEnded w.owned (e.close data).1.nServed]⟩
  apply (Warns.of_ends hset rfl rfl).bind hset
  apply Quiet.ofRank

/-- A rank logs no warning. -/
theorem quiet_run (s : Station) (nArray : Nat) (transfer : TransferMode) (limit : Option Nat) :
  Quiet (run s nArray transfer limit)
  := by
  rw [run]
  split
  · apply (Quiet.log (by decide)).bind
    intro _
    apply Quiet.pure
  · have hstarted : (Event.rankStarted nArray s.window.owned transfer).level ≠ .warn := by
      simp [Event.level]
    apply (Quiet.log hstarted).bind
    intro _
    apply (Quiet.check _).bind
    intro scratch
    cases transfer with
    | immediate => apply quiet_runImmediate
    | threaded => apply quiet_runThreaded

end Rank

namespace Executor

variable {e : Executor} {nArray : Nat}

theorem quiet_runInTurn (stations : List Station) :
  Quiet (e.runInTurn nArray stations)
  := by
  induction stations with
  | nil => apply Quiet.pure
  | cons s rest ih =>
    apply (Rank.quiet_run _ _ _ _).bind
    intro report
    apply ih.bind
    intro reports
    apply Quiet.pure

theorem quiet_runToEnds (stations : List Station) :
  Quiet (e.runToEnds nArray stations)
  := by
  induction stations with
  | nil => apply Quiet.pure
  | cons s rest ih =>
    apply (Quiet.attempt (Rank.quiet_run _ _ _ _)).bind
    intro ended
    apply ih.bind
    intro rest
    apply Quiet.pure

/-- The ranks log no warnings, however they are scheduled. -/
theorem quiet_runRanks (stations : List Station) :
  Quiet (e.runRanks nArray stations)
  := by
  rw [runRanks]
  cases e.schedule with
  | serial => apply quiet_runInTurn
  | parallel => exact (quiet_runToEnds stations).bind Quiet.ofAttempts

/-- An executor that has got its arenas warns of idle ranks when it splits its view, and of nothing
else. -/
theorem warns_driveReduce {host : Host} {v : View} {c : Context} {arenas : List Arena}
    (h₂ : 2 ≤ c.nArray) (hnArray : v.nArray = c.nArray) (howned : v.owned = ⟨0, c.nRecord⟩)
    (harenas : e.arenas host c.blockLen = .ok arenas) (world : World) :
  (e.driveReduce host v c).Warns world (c.partition e.nRank).idleWarnings
  := by
  have hstart : (e.startEvent c).level ≠ .warn := by
    rw [startEvent]
    cases e.schedule <;> simp [Event.level]
  have hwarnings : (c.partition e.nRank).idleWarnings.filter (·.level = .warn)
      = (c.partition e.nRank).idleWarnings := by
    rw [Partition.idleWarnings]
    split <;> rfl
  have hsplit := ends_splitViews v c.blockLen e.nRank_pos
    ⟨world.data, world.events ++ [e.startEvent c]⟩
  rw [(View.owned_eq_iff.mp howned).2] at hsplit
  rw [e.driveReduce_eq host h₂ hnArray howned]
  apply (Quiet.log hstart).after (Ends.log _ world)
  apply (Quiet.check (e.arenas host c.blockLen)).after (Ends.check harenas _)
  have hviews := Warns.of_ends hsplit rfl hwarnings
  apply (hviews.before_quiet fun _ => Quiet.ofLayout _).before_quiet
  intro windows
  apply quiet_runRanks

end Executor

/-- The views that show no records are those of the idle ranks. -/
theorem Partition.countP_isEmpty_views (p : Partition) (v : View) (h : 0 < p.nRecord) :
  (p.shares.map v.part).countP (·.owned.isEmpty) = p.nIdle
  := by
  have hpart : ∀ s : Span, (v.part s).owned.isEmpty = s.isEmpty := by
    intro s
    have hlength : (v.part s).owned.length = s.length := Nat.add_sub_cancel_left _ _
    rw [Bool.eq_iff_iff, Span.isEmpty_iff, Span.isEmpty_iff, hlength]
  rw [nIdle, if_neg (by omega), List.countP_map]
  simp only [Function.comp_def, hpart]

/-- The number of idle ranks in closed form. Splitting a view logs a warning of this number just if
it is positive, and otherwise nothing; it is then the number of views without records. So does a
reduction that splits a view, and nothing else that it logs is a warning. -/
theorem Partition.nIdle_closed (p : Partition) (hb : 0 < p.blockLen) (hn : 0 < p.nRank) :
  (p.nRecord = 0 → p.nIdle = 0) ∧
  (0 < p.nRecord → (p.nIdle : Int) = p.nRank - min p.nBlock p.nRank
    - if 0 < p.nRecord % p.blockLen ∧ 2 * p.nBlock ≤ p.nRank then 1 else 0) ∧
  (∀ (v : View) (world : World), v.nRecord = p.nRecord →
    ∃ views, Ends (splitViews v p.blockLen p.nRank) world (.ok views)
        ⟨world.data, world.events ++ p.idleWarnings⟩ ∧
      (0 < p.nRecord → views.countP (·.owned.isEmpty) = p.nIdle)) ∧
  ∀ (c : Context) (world : World), c.partition p.nRank = p →
    (∀ v, c.view world.data.size = .ok v →
      ∃ views, Ends (c.rankViews p.nRank) world (.ok views)
          ⟨world.data, world.events ++ p.idleWarnings⟩ ∧
        (0 < p.nRecord → views.countP (·.owned.isEmpty) = p.nIdle)) ∧
    ∀ (e : Executor) (host : Host) (v : View), 2 ≤ c.nArray → e.nRank = p.nRank →
      v.nArray = c.nArray → v.owned = ⟨0, c.nRecord⟩ →
      (∃ arenas, e.arenas host c.blockLen = .ok arenas) →
      (e.driveReduce host v c).Warns world p.idleWarnings
  := by
  constructor
  · intro hzero
    rw [nIdle, if_pos hzero]
  constructor
  · intro hrecord
    have hadd := p.nIdle_add hb hn hrecord
    split at hadd <;> omega
  constructor
  · intro v world hv
    use p.shares.map v.part
    constructor
    · have hsplit := ends_splitViews v p.blockLen hn world
      rw [hv] at hsplit
      exact hsplit
    · exact p.countP_isEmpty_views v
  intro c world hp
  constructor
  · intro v hview
    use p.shares.map v.part
    constructor
    · have hviews := Context.ends_rankViews hn hview
      rw [hp] at hviews
      exact hviews
    · exact p.countP_isEmpty_views v
  · rintro e host v h₂ he hnArray howned ⟨arenas, harenas⟩
    have hwarns := Executor.warns_driveReduce h₂ hnArray howned harenas world
    rw [he, hp] at hwarns
    exact hwarns

/-- Two blocks and a tail on three ranks leave the second rank idle, though there are as many ranks
as blocks to go through. On five ranks, the last one has nothing but the tail. -/
theorem Partition.nIdle_closed_two_blocks :
  (Partition.mk 70 32 3).shares = [⟨0, 32⟩, ⟨32, 32⟩, ⟨32, 70⟩] ∧
  ((Partition.mk 70 32 3).nIdle : Int) = 3 - min 2 3 - (if 0 < 6 ∧ 2 * 2 ≤ 3 then 1 else 0) ∧
  ((Partition.mk 70 32 5).nIdle : Int) = 5 - min 2 5 - (if 0 < 6 ∧ 2 * 2 ≤ 5 then 1 else 0) ∧
  ∃ views, Ends (splitViews ⟨2, 70, 0, 70, 1⟩ 32 3) ⟨#[], []⟩ (.ok views)
      ⟨#[], [.idleRanks 1 ⟨70, 32, 3⟩]⟩ ∧
    views.countP (·.owned.isEmpty) = 1
  := by
  obtain ⟨-, hthree, hsplit, -⟩ := nIdle_closed ⟨70, 32, 3⟩ (by decide) (by decide)
  obtain ⟨-, hfive, -⟩ := nIdle_closed ⟨70, 32, 5⟩ (by decide) (by decide)
  use by decide, hthree (by decide), hfive (by decide)
  obtain ⟨views, hends, hcount⟩ := hsplit ⟨2, 70, 0, 70, 1⟩ ⟨#[], []⟩ rfl
  use views, hends, hcount (by decide)

end ReplicaSum
