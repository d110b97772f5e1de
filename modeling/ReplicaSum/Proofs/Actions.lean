import ReplicaSum.Reduction
import ReplicaSum.Proofs.Reducer
import ReplicaSum.Proofs.Sequential

/-!
# Actions

How an action on the records ends: `ReduceM.Ends` relates an action and the world on which it acts
to its outcome and to the world that it leaves. A rank that is run on the records of its window
replaces them by their sums, whichever engine it uses and whatever its arena held before, if it need
not give up waiting for a transfer.
-/

namespace ReplicaSum

namespace ReduceM

variable {α β : Type} {m : ReduceM α} {f : α → ReduceM β} {a : α} {world world₁ world₂ : World}

/-- An action on `world` ends with `outcome` and leaves `world'`. -/
def Ends (m : ReduceM α) (world : World) (outcome : Except (Failure ReduceError) α)
    (world' : World) : Prop :=
  m.run.run world = (outcome, world')

namespace Ends

theorem pure (a : α) (world : World) :
  Ends (pure a) world (.ok a) world
  := rfl

/-- An action ends in only one way. -/
theorem unique {outcome outcome' : Except (Failure ReduceError) α} {world₁' : World}
    (h : Ends m world outcome world₁) (h' : Ends m world outcome' world₁') :
  outcome = outcome' ∧ world₁ = world₁'
  := Prod.mk.inj (h.symm.trans h')

/-- An action goes on where its first part has ended. -/
theorem bind {outcome : Except (Failure ReduceError) β} (h : Ends m world (.ok a) world₁)
    (h' : Ends (f a) world₁ outcome world₂) :
  Ends (m >>= f) world outcome world₂
  := by
  rw [Ends, ExceptT.run_bind, StateT.run_bind, h]
  apply h'

/-- An action ends where its first part fails. -/
theorem bind_error {failure : Failure ReduceError} (h : Ends m world (.error failure) world₁) :
  Ends (m >>= f) world (.error failure) world₁
  := by
  rw [Ends, ExceptT.run_bind, StateT.run_bind, h]
  rfl

/-- An action that ends well has been through its parts. -/
theorem of_bind {b : β} (h : Ends (m >>= f) world (.ok b) world₂) :
  ∃ a world₁, Ends m world (.ok a) world₁ ∧ Ends (f a) world₁ (.ok b) world₂
  := by
  rw [Ends, ExceptT.run_bind, StateT.run_bind] at h
  rcases hm : m.run.run world with ⟨outcome, world₁⟩
  rw [hm] at h
  cases outcome with
  | ok a => exact ⟨a, world₁, hm, h⟩
  | error failure => cases h

theorem log (e : Event) (world : World) :
  Ends (log e) world (.ok ()) { world with events := world.events ++ [e] }
  := rfl

theorem get (world : World) :
  Ends MonadState.get world (.ok world) world
  := rfl

theorem set (world world' : World) :
  Ends (MonadStateOf.set world') world (.ok ()) world'
  := rfl

theorem throw (failure : Failure ReduceError) (world : World) :
  Ends (throw failure : ReduceM α) world (.error failure) world
  := rfl

/-- A result that is checked is there. -/
theorem check {result : Except ReduceError α} (h : result = .ok a) (world : World) :
  Ends (check result) world (.ok a) world
  := by
  subst h
  apply pure a world

theorem of_check {result : Except ReduceError α}
    (h : Ends (ReduceM.check result) world (.ok a) world₁) :
  result = .ok a ∧ world₁ = world
  := by
  cases result with
  | ok b =>
    cases h
    exact ⟨rfl, rfl⟩
  | error cause => cases h

/-- A result that is insisted on is there. -/
theorem insist {result : Except Violation α} (h : result = .ok a) (world : World) :
  Ends (insist result) world (.ok a) world
  := by
  subst h
  apply pure a world

theorem of_insist {result : Except Violation α}
    (h : Ends (ReduceM.insist result) world (.ok a) world₁) :
  result = .ok a ∧ world₁ = world
  := by
  cases result with
  | ok b =>
    cases h
    exact ⟨rfl, rfl⟩
  | error cause => cases h

/-- A result about the layout is there. -/
theorem ofLayout {result : Except (Failure LayoutError) α} (h : result = .ok a) (world : World) :
  Ends (ofLayout result) world (.ok a) world
  := by
  subst h
  apply pure a world

theorem of_ofLayout {result : Except (Failure LayoutError) α}
    (h : Ends (ReduceM.ofLayout result) world (.ok a) world₁) :
  result = .ok a ∧ world₁ = world
  := by
  cases result with
  | ok b =>
    cases h
    exact ⟨rfl, rfl⟩
  | error failure => cases h

theorem of_ofRank {result : Except (Failure RankError) α}
    (h : Ends (ReduceM.ofRank result) world (.ok a) world₁) :
  result = .ok a
  := by
  cases result with
  | ok b =>
    cases h
    rfl
  | error failure => cases h

/-- An action that is attempted ends well, with what came of it. -/
theorem attempt {outcome : Except (Failure ReduceError) α} (h : Ends m world outcome world₁) :
  Ends (attempt m) world (.ok outcome) world₁
  := by
  have hrun : (ReduceM.attempt m).run.run world
      = (.ok (m.run.run world).1, (m.run.run world).2) := rfl
  rw [Ends, hrun, h]

theorem of_attempt {outcome : Except (Failure ReduceError) α}
    (h : Ends (ReduceM.attempt m) world (.ok outcome) world₁) :
  Ends m world outcome world₁
  := by
  have hrun : (ReduceM.attempt m).run.run world
      = (.ok (m.run.run world).1, (m.run.run world).2) := rfl
  rw [Ends, hrun] at h
  cases h
  rfl

/-- If all attempts ended well, their results are there. -/
theorem ofAttempts (results : List α) (world : World) :
  Ends (ofAttempts (results.map .ok)) world (.ok results) world
  := by
  induction results with
  | nil => exact pure [] world
  | cons a results ih => exact ih.bind (pure (a :: results) world)

/-- Attempts whose results are there have all ended well. -/
theorem of_ofAttempts {outcomes : List (Except (Failure ReduceError) α)} {results : List α}
    (h : Ends (ReduceM.ofAttempts outcomes) world (.ok results) world₁) :
  outcomes = results.map .ok
  := by
  induction outcomes generalizing results with
  | nil =>
    cases h
    rfl
  | cons outcome outcomes ih =>
    cases outcome with
    | error failure => cases h
    | ok a =>
      obtain ⟨others, _, hothers, h⟩ := h.of_bind
      cases h
      rw [ih hothers]
      rfl

end Ends

end ReduceM

/-! ### Arenas -/

namespace Arena

/-- An arena with room for blocks of `blockLen` records, whatever it holds. -/
structure HasRoom (arena : Arena) (blockLen : Nat) : Prop where
  blockLen_eq : arena.blockLen = blockLen
  staged_size : stagedLen blockLen ≤ arena.staged.size
  sum_size : blockLen ≤ arena.sum.size
  out_size : blockLen ≤ arena.out.size

variable {arena : Arena} {blockLen : Nat}

/-- The scratch memory can be taken from an arena with room for it. -/
theorem HasRoom.scratch_eq_ok (h : arena.HasRoom blockLen) (hb : IsBlockLen blockLen) :
  ∃ scratch, arena.scratch = .ok scratch ∧ scratch.blockLen = blockLen
  := by
  obtain ⟨rfl, hstaged, hsum, hout⟩ := h
  use ⟨arena.staged, arena.sum, arena.out, arena.blockLen, hb, hstaged, hsum, hout⟩
  constructor
  · rw [scratch, Scratch.ofBuffers, dif_pos hb, dif_pos hstaged, dif_pos ⟨hsum, hout⟩]
  · rfl

/-- The memory for the buffers of an arena is granted. -/
structure Granted (grants : ScratchPart → Nat → Bool) (blockLen : Nat) : Prop where
  staged : grants .staged (stagedLen blockLen * recordBytes) = true
  sum : grants .sum (blockLen * wideRecordBytes) = true
  out : grants .out (blockLen * recordBytes) = true

theorem reserve_eq_ok {α : Type} {grants : ScratchPart → Nat → Bool} {part : ScratchPart}
    {len bytes : Nat} (h : grants part (len * bytes) = true) (a : α) :
  reserve grants part len bytes a = .ok (Array.replicate len a)
  := if_pos h

/-- The arena for blocks of `blockLen` records that nobody has used yet. -/
def blank (blockLen : Nat) : Arena where
  staged := Array.replicate (stagedLen blockLen) Lanes.zero
  sum := Array.replicate blockLen Lanes.wideZero
  out := Array.replicate blockLen Lanes.zero
  blockLen := blockLen

theorem hasRoom_blank (blockLen : Nat) :
  (blank blockLen).HasRoom blockLen
  where
  blockLen_eq := rfl
  staged_size := Nat.le_of_eq Array.size_replicate.symm
  sum_size := Nat.le_of_eq Array.size_replicate.symm
  out_size := Nat.le_of_eq Array.size_replicate.symm

/-- An arena can be reserved if its memory is granted. -/
theorem new_eq_ok {grants : ScratchPart → Nat → Bool} (h : Granted grants blockLen) :
  new grants blockLen = .ok (blank blockLen)
  := by
  rw [new, reserve_eq_ok h.staged, reserve_eq_ok h.sum, reserve_eq_ok h.out]
  rfl

end Arena

/-! ### Engines -/

namespace RankM.Runs

variable {α : Type} {m : RankM α} {a : α} {w : Window} {data data' : Data} {e : Tracked}

/-- A program runs on an immediate engine as it does on a tracked one, and makes only
valid calls. -/
theorem immediate (h : Runs Tracked.Safe m (.new w) data (.ok a) e data') :
  Session.Along (fun request _ _ => request.Valid w) m.run (Immediate.new w) data ∧
    Session.run m.run (Immediate.new w) data = (.ok a, e.engine, data')
  := by
  obtain ⟨hvalid, result, e₁, data₁, hrun, himmediate⟩ := Tracked.run_engine h.along
  rw [h.run_eq] at hrun
  cases hrun
  exact ⟨hvalid, himmediate⟩

/-- A program runs on a sequential engine as it does on a tracked one. -/
theorem sequential (h : Runs Tracked.Safe m (.new w) data (.ok a) e data') :
  (Session.run m.run (Sequential.new w) data).1 = .ok a ∧
    (Session.run m.run (Sequential.new w) data).2.2 = data'
  := by
  obtain ⟨hvalid, hrun⟩ := h.immediate
  have hvalid' := Session.along_sequential m.run hvalid
  obtain ⟨-, -, hresult, hdata⟩ := Session.run_sequential_eq_immediate m.run hvalid'
  rw [hresult, hdata, hrun]
  exact ⟨rfl, rfl⟩

/-- The program of a patient client runs on a threaded engine as it does on a tracked one, once the
worker has served what is left. -/
theorem threaded {pacing : Pacing} (h : Runs Tracked.Safe m (.new w) data (.ok a) e data')
    (hpatient : pacing.Patient) :
  ∃ e₁ data₁, Session.run m.run (Threaded.paced w pacing) data = (.ok a, e₁, data₁) ∧
    (e₁.close data₁).2 = data'
  := by
  obtain ⟨-, result, s, d, e₁, data₁, hrun, hthreaded, hahead⟩ :=
    Session.run_sequential_eq_threaded m.run (Ahead.paced w hpatient data)
  obtain ⟨hresult, hdata⟩ := h.sequential
  rw [hrun] at hresult hdata
  use e₁, data₁
  constructor
  · rw [hthreaded]
    exact congrArg (·, e₁, data₁) hresult
  · apply hahead.data_eq.trans hdata

end RankM.Runs

/-! ### Ranks -/

/-- With a given transfer mode and limit, nobody gives up on a worker that takes so long. -/
def TransferMode.InTime (transfer : TransferMode) (limit : Option Nat) (delay : Nat → Delay) :
    Prop :=
  transfer = .threaded → (Pacing.mk limit delay).Patient

/-- A station where a rank can do its part with blocks of `blockLen` records: its arena has room for
them, and nobody gives up on its copy worker. -/
structure Station.Ready (s : Station) (blockLen : Nat) (transfer : TransferMode)
    (limit : Option Nat) : Prop where
  room : s.arena.HasRoom blockLen
  time : transfer.InTime limit s.delay

/-- A machine has what the `k`-th rank of a reduction needs: memory for an arena, and a copy worker
that nobody gives up on. -/
structure Host.Supports (host : Host) (k blockLen : Nat) (transfer : TransferMode)
    (limit : Option Nat) : Prop where
  memory : Arena.Granted (host.grants k) blockLen
  time : transfer.InTime limit (host.delay k)

/-- A machine with one thread, with as much memory and as many pools as anybody asks for, and with
copy workers that nobody has to wait for. -/
def Host.ample : Host where
  poolSize := 1
  poolFault _ := none
  grants _ _ _ := true
  delay _ _ := ⟨0, 0⟩

theorem Host.supports_ample (k blockLen : Nat) (transfer : TransferMode) (limit : Option Nat) :
  Host.ample.Supports k blockLen transfer limit
  where
  memory := ⟨rfl, rfl, rfl⟩
  time _ := by
    cases limit with
    | none => apply Pacing.patient_of_none
    | some limit => exact Pacing.patient_of_le fun _ => Nat.zero_le limit

namespace Rank

open ReduceM (Ends)

variable {w : Window} {world : World} {nArray : Nat} {transfer : TransferMode}

/-- A rank without records has nothing to reduce. -/
theorem ends_run_of_isEmpty {s : Station} {blockLen : Nat} (hempty : s.window.owned.isEmpty = true)
    (hb : IsBlockLen blockLen) (limit : Option Nat) :
  Ends (run s nArray transfer limit) world (.ok (.complete s.window.owned blockLen))
    { world with events := world.events ++ [.emptyRank] }
  := by
  rw [run, if_pos hempty, RankReport.complete_of_isEmpty hb.1 hempty]
  exact (Ends.log _ world).bind (Ends.pure _ _)

/-- A rank with records ends as its session does. -/
theorem ends_run_of_session {s : Station} {scratch : Scratch} {limit : Option Nat} {world' : World}
    {outcome : Except (Failure ReduceError) RankReport} (hempty : ¬ s.window.owned.isEmpty = true)
    (hscratch : s.arena.scratch = .ok scratch)
    (h : Ends (match transfer with
      | .immediate => runImmediate s.window (session s.window.owned nArray scratch)
      | .threaded => runThreaded s.window ⟨limit, s.delay⟩ (session s.window.owned nArray scratch))
      { world with events := world.events ++ [.rankStarted nArray s.window.owned transfer] }
      outcome world') :
  Ends (run s nArray transfer limit) world outcome world'
  := by
  rw [run, if_neg hempty]
  apply (Ends.log _ world).bind ((Ends.check hscratch _).bind h)

/-- A session on a threaded engine ends, and then the worker serves what is left. -/
theorem ends_runThreaded {m : RankM RankReport} {pacing : Pacing} {e : Threaded} {data : Data}
    {outcome : Except (Failure RankError) RankReport} (world : World)
    (h : m.run.run (Threaded.paced w pacing) world.data = (outcome, e, data)) :
  Ends (runThreaded w pacing m) world
    (outcome.mapError fun failure => failure.map ReduceError.ofRankError)
    ⟨(e.close data).2, world.events ++ [.workerEnded w.owned (e.close data).1.nServed]⟩
  := by
  apply (Ends.get world).bind
  rw [h]
  apply (Ends.set world _).bind
  cases outcome with
  | ok report => exact Ends.pure report _
  | error failure => exact Ends.throw _ _

/-- A rank whose session ends well on a tracked engine replaces the data as the session does, with
either engine of its own. -/
theorem ends_session {m : RankM RankReport} {report : RankReport} {e : Tracked} {data' : Data}
    {pacing : Pacing} (world : World)
    (h : RankM.Runs Tracked.Safe m (.new w) world.data (.ok report) e data')
    (hpatient : transfer = .threaded → pacing.Patient) :
  ∃ world', world'.data = data' ∧
    Ends (match transfer with
      | .immediate => runImmediate w m
      | .threaded => runThreaded w pacing m) world (.ok report) world'
  := by
  cases transfer with
  | immediate =>
    use { world with data := data' }, rfl
    apply (Ends.get world).bind
    have hrun : m.run.run (Immediate.new w) world.data = _ := h.immediate.2
    rw [hrun]
    apply (Ends.set world _).bind (Ends.pure report _)
  | threaded =>
    obtain ⟨e₁, data₁, hrun, hdata⟩ := h.threaded (hpatient rfl)
    exact ⟨_, hdata, ends_runThreaded world hrun⟩

/-- A rank replaces the records of its window by their sums, whatever engine it uses and whatever
its arena held before. -/
theorem ends_run {s : Station} {blockLen : Nat} {limit : Option Nat}
    (hfits : s.window.Fits world.data.size) (h₂ : 2 ≤ nArray) (hn : nArray ≤ s.window.nArray)
    (hb : IsBlockLen blockLen) (hready : s.Ready blockLen transfer limit) :
  ∃ world', Ends (run s nArray transfer limit) world
      (.ok (.complete s.window.owned blockLen)) world' ∧
    Reduced s.window.stride nArray (· ∈ s.window.owned) world.data world'.data
  := by
  by_cases hempty : s.window.owned.isEmpty = true
  · refine ⟨_, ends_run_of_isEmpty hempty hb limit, ?_⟩
    apply Reduced.of_forall_not
    apply Span.not_mem_of_isEmpty hempty
  · obtain ⟨scratch, hscratch, rfl⟩ := hready.room.scratch_eq_ok hb
    obtain ⟨data', hruns, hreduced⟩ :=
      runs_session scratch hfits h₂ hn (fun i (hi : i ∈ s.window.owned) => hi)
    let started : World :=
      { world with events := world.events ++ [.rankStarted nArray s.window.owned transfer] }
    obtain ⟨world', rfl, hends⟩ := ends_session started hruns hready.time
    exact ⟨world', ends_run_of_session hempty hscratch hends, hreduced⟩

end Rank

end ReplicaSum
