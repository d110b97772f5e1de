import ReplicaSum.Proofs.Actions
import ReplicaSum.Proofs.Interleaving
import ReplicaSum.Proofs.Rows

/-!
# Actions as processes

The process of a rank takes in single steps what the action of the rank does at once. Left alone, a
process ends with the result of the action and with the data that the action leaves, whether it
succeeds or fails (`RankProcess.Realizes`). Only where the rank may give up waiting for a transfer
does the result depend on when its worker takes its steps.
-/

namespace ReplicaSum

namespace RankProcess

variable {α : Type} {w : Window} {p : RankProcess} {m : ReduceM RankReport}

/-- Go on with a result, or end with its error. -/
def check (result : Except ReduceError α) (next : α → RankProcess) : RankProcess :=
  match result with
  | .ok a => next a
  | .error cause => .ended (.error (.error cause))

/-- Go on with a result, or end because a precondition is broken. -/
def insist (result : Except Violation α) (next : α → RankProcess) : RankProcess :=
  match result with
  | .ok a => next a
  | .error cause => .ended (.error (.violation cause))

/-- Go on with a result about the layout, or end as it does. -/
def ofLayout (result : Except (Failure LayoutError) α) (next : α → RankProcess) : RankProcess :=
  match result with
  | .ok a => next a
  | .error failure => .ended (.error (failure.map ReduceError.layout))

/-- A rank that is about to reduce the records of the window of a station. -/
def start (s : Station) (nArray : Nat) (transfer : TransferMode) (limit : Option Nat) :
    RankProcess :=
  if s.window.owned.isEmpty then .ended (.ok (.empty s.window.owned))
  else
    check s.arena.scratch fun scratch =>
      match transfer with
      | .immediate =>
        .immediate (.new s.window) (Rank.session s.window.owned nArray scratch).run
      | .threaded =>
        .threaded (.paced s.window ⟨limit, s.delay⟩
          (Rank.session s.window.owned nArray scratch).run)

/-- A rank that is about to do its part of a reduction. -/
def pipeline (host : Host) (v : View) (c : Context) (rank nRank : Nat) (config : Config) :
    RankProcess :=
  check (Context.checkRank rank nRank) fun _ =>
    insist ((c.partition nRank).owned? rank) fun share =>
      if v.nArray ≠ c.nArray ∨ v.owned ≠ share then
        .ended (.error (.error (.layout .rankMismatch)))
      else if c.isNoop then .ended (.ok (.empty share))
      else
        ofLayout v.openWindow fun window =>
          check (Arena.new (host.grants rank) c.blockLen) fun arena =>
            start ⟨window, arena, host.delay rank⟩ c.nArray config.transfer config.waitTimeoutMs

/-! ### Windows -/

theorem serves_check {result : Except ReduceError α} {next : α → RankProcess}
    (h : ∀ a, (next a).Serves w) :
  (check result next).Serves w
  := by
  cases result with
  | ok a => exact h a
  | error cause => trivial

theorem serves_insist {result : Except Violation α} {next : α → RankProcess}
    (h : ∀ a, (next a).Serves w) :
  (insist result next).Serves w
  := by
  cases result with
  | ok a => exact h a
  | error cause => trivial

theorem serves_ofLayout {result : Except (Failure LayoutError) α} {next : α → RankProcess}
    (h : ∀ a, result = .ok a → (next a).Serves w) :
  (ofLayout result next).Serves w
  := by
  cases result with
  | ok a => exact h a rfl
  | error failure => trivial

/-- A rank accesses the data only through its window. -/
theorem serves_start (s : Station) (nArray : Nat) (transfer : TransferMode) (limit : Option Nat) :
  (start s nArray transfer limit).Serves s.window
  := by
  rw [start]
  split
  · trivial
  · apply serves_check
    intro scratch
    cases transfer with
    | immediate => rfl
    | threaded => rfl

/-- A rank that does its part of a reduction accesses the data only through the window
of its view. -/
theorem serves_pipeline (host : Host) (v : View) (c : Context) (rank nRank : Nat)
    (config : Config) :
  (pipeline host v c rank nRank config).Serves v.window
  := by
  apply serves_check
  intro _
  apply serves_insist
  intro share
  split
  · trivial
  · split
    · trivial
    · apply serves_ofLayout
      intro window hwindow
      obtain rfl := View.eq_window_of_openWindow hwindow
      apply serves_check
      intro arena
      apply serves_start

/-! ### Executions -/

/-- On an immediate engine, a session is run up to its end. -/
theorem inevitably_immediate (session : Session RankOutcome) (e : Immediate) (data : Data) :
  Inevitably Step
    (fun st => ∃ e', st.1 = .immediate e' (.done (session.run e data).1) ∧
      st.2 = (session.run e data).2.2)
    (.immediate e session, data)
  := by
  induction session generalizing e data with
  | done outcome =>
    constructor
    · rintro st hstep
      cases hstep
    · intro _
      exact ⟨e, rfl, rfl⟩
  | call request next ih =>
    constructor
    · intro st hstep
      cases hstep with
      | immediate hanswer =>
        rw [Session.run, hanswer]
        apply ih _ _ _
    · intro hstuck
      exact absurd (.immediate rfl) (hstuck _)

/-- A rank with a threaded engine ends as its client and its worker do. -/
theorem inevitably_worked {Q : Worked RankOutcome × Data → Prop} {worked : Worked RankOutcome}
    {data : Data} (h : Inevitably Worked.Step Q (worked, data)) :
  Inevitably Step (fun st => ∃ x, st = (.threaded x.1, x.2) ∧ Q x) (.threaded worked, data)
  := by
  apply Inevitably.simulate _ _ h
  · rfl
  · rintro _ st x rfl hstep
    cases hstep with
    | threaded hstep => exact ⟨_, hstep, rfl⟩
  · rintro _ x y rfl hstep
    exact ⟨_, .threaded hstep⟩

/-- On the threaded engine of a patient client, a session is run up to its end, and the worker
serves everything. -/
theorem inevitably_threaded (session : Session RankOutcome) (w : Window) {pacing : Pacing}
    (hpatient : pacing.Patient) (data : Data) :
  Inevitably Step
    (fun st => ∃ e transcript, e.queue = [] ∧
      st.1 = .threaded
        ⟨.running (.done (session.run (Threaded.paced w pacing) data).1), e, transcript⟩ ∧
      st.2 = ((session.run (Threaded.paced w pacing) data).2.1.close
        (session.run (Threaded.paced w pacing) data).2.2).2)
    (.threaded (.paced w pacing session), data)
  := by
  obtain ⟨-, result, s', d', e', data', hrun, hthreaded, hahead⟩ :=
    session.run_sequential_eq_threaded (Ahead.paced w hpatient data)
  have hends := Worked.sequenced_running session (Ahead.paced w hpatient data) []
  apply (inevitably_worked hends).mono
  rintro _ ⟨⟨worked, data₁⟩, rfl, e, hworked, hqueue, hahead₁⟩
  use e, session.transcript (Sequential.new w) data, hqueue
  have hdata₁ := hahead₁.data_eq
  rw [Threaded.close_of_queue_nil hqueue] at hdata₁
  rw [Client.run, hrun] at hworked hdata₁
  rw [hthreaded]
  constructor
  · exact congrArg RankProcess.threaded hworked
  · apply hdata₁.trans hahead.data_eq.symm

/-! ### Realizing actions -/

/-- Left alone, a process ends with the result of an action and with the data that it leaves. -/
def Realizes (p : RankProcess) (m : ReduceM RankReport) : Prop :=
  ∀ world, Inevitably Step
    (fun st => st.1.result? = some (m.run.run world).1 ∧ st.2 = (m.run.run world).2.data)
    (p, world.data)

namespace Realizes

/-- A process that has ended realizes an action that leaves the data alone. -/
theorem ended {result : Except (Failure ReduceError) RankReport}
    (h : ∀ world, m.run.run world = (result, world)) :
  Realizes (.ended result) m
  := by
  intro world
  constructor
  · intro st hstep
    cases hstep
  · intro _
    rw [h]
    exact ⟨rfl, rfl⟩

/-- What an action logs can't be seen in a process. -/
theorem log (e : Event) (h : Realizes p m) :
  Realizes p (do ReduceM.log e; m)
  := by
  intro world
  apply h { world with events := world.events ++ [e] }

theorem check {result : Except ReduceError α} {next : α → RankProcess}
    {f : α → ReduceM RankReport} (h : ∀ a, result = .ok a → Realizes (next a) (f a)) :
  Realizes (RankProcess.check result next) (ReduceM.check result >>= f)
  := by
  cases result with
  | ok a => exact h a rfl
  | error cause => exact ended fun _ => rfl

theorem insist {result : Except Violation α} {next : α → RankProcess}
    {f : α → ReduceM RankReport} (h : ∀ a, result = .ok a → Realizes (next a) (f a)) :
  Realizes (RankProcess.insist result next) (ReduceM.insist result >>= f)
  := by
  cases result with
  | ok a => exact h a rfl
  | error cause => exact ended fun _ => rfl

theorem ofLayout {result : Except (Failure LayoutError) α} {next : α → RankProcess}
    {f : α → ReduceM RankReport} (h : ∀ a, result = .ok a → Realizes (next a) (f a)) :
  Realizes (RankProcess.ofLayout result next) (ReduceM.ofLayout result >>= f)
  := by
  cases result with
  | ok a => exact h a rfl
  | error failure => exact ended fun _ => rfl

theorem ofRank (outcome : RankOutcome) (world : World) :
  (ReduceM.ofRank outcome).run.run world
    = (outcome.mapError (·.map ReduceError.ofRankError), world)
  := by
  cases outcome with
  | ok report => rfl
  | error failure => rfl

theorem runImmediate (w : Window) (s : RankM RankReport) :
  Realizes (.immediate (.new w) s.run) (Rank.runImmediate w s)
  := by
  intro world
  have hrun : (Rank.runImmediate w s).run.run world
      = (ReduceM.ofRank (s.run.run (Immediate.new w) world.data).1).run.run
        { world with data := (s.run.run (Immediate.new w) world.data).2.2 } := rfl
  rw [hrun, ofRank]
  apply (inevitably_immediate s.run (.new w) world.data).mono
  rintro ⟨_, _⟩ ⟨e', rfl, rfl⟩
  exact ⟨rfl, rfl⟩

theorem runThreaded (w : Window) {pacing : Pacing} (hpatient : pacing.Patient)
    (s : RankM RankReport) :
  Realizes (.threaded (.paced w pacing s.run)) (Rank.runThreaded w pacing s)
  := by
  intro world
  let ended := s.run.run (Threaded.paced w pacing) world.data
  have hrun : (Rank.runThreaded w pacing s).run.run world
      = (ReduceM.ofRank ended.1).run.run ⟨(ended.2.1.close ended.2.2).2,
        world.events ++ [.workerEnded w.owned (ended.2.1.close ended.2.2).1.nServed]⟩ := rfl
  rw [hrun, ofRank]
  apply (inevitably_threaded s.run w hpatient world.data).mono
  rintro ⟨_, _⟩ ⟨e', transcript, hqueue, rfl, rfl⟩
  constructor
  · rw [result?, hqueue]
    rfl
  · rfl

/-- A process ends as the action that it realizes. -/
theorem inevitably {outcome : Except (Failure ReduceError) RankReport} {world world' : World}
    (h : Realizes p m) (hends : ReduceM.Ends m world outcome world') :
  Inevitably Step (fun st => st.1.result? = some outcome ∧ st.2 = world'.data) (p, world.data)
  := by
  have hinevitably := h world
  rw [hends] at hinevitably
  apply hinevitably

end Realizes

/-- A rank takes in single steps what its action does at once. -/
theorem realizes_start (s : Station) (nArray : Nat) {transfer : TransferMode} {limit : Option Nat}
    (htime : transfer.InTime limit s.delay) :
  Realizes (start s nArray transfer limit) (Rank.run s nArray transfer limit)
  := by
  rw [start, Rank.run]
  split
  · apply Realizes.log
    exact .ended fun _ => rfl
  · apply Realizes.log
    apply Realizes.check
    intro scratch _
    cases transfer with
    | immediate => exact .runImmediate s.window _
    | threaded => exact .runThreaded s.window (htime rfl) _

/-- A rank takes in single steps what its part of a reduction does at once. -/
theorem realizes_pipeline {host : Host} (v : View) (c : Context) (rank nRank : Nat)
    {config : Config} (htime : config.transfer.InTime config.waitTimeoutMs (host.delay rank)) :
  Realizes (pipeline host v c rank nRank config) (reducePipeline host v c rank nRank config)
  := by
  apply Realizes.check
  intro _ _
  apply Realizes.insist
  intro share _
  split
  · exact .ended fun _ => rfl
  · split
    · exact .ended fun _ => rfl
    · apply Realizes.ofLayout
      intro window _
      apply Realizes.check
      intro arena _
      apply realizes_start ⟨window, arena, host.delay rank⟩ c.nArray htime

end RankProcess

end ReplicaSum
