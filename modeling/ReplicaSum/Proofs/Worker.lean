import ReplicaSum.Proofs.Inevitable
import ReplicaSum.Proofs.Sequential

/-!
# A client and a copy worker

A session on a threaded engine as a concurrent system: the client makes its calls, the worker serves
the queue, and any of the two may take the next step. Waiting goes on only once the worker has
announced how the transfer went or the client gives up, and when the client has let go of the
engine, the worker serves what is left. If the client is patient, all executions come to an end, in
the state in which the session ends on a sequential engine. -/

namespace ReplicaSum

/-- What a client is about to do. -/
inductive Client (α : Type) where
  /-- To go on with a session. A session that has ended has let go of its engine. -/
  | running (session : Session α)
  /-- To wait under the given tags on behalf of a call that finishes, and then to go on. -/
  | finishing (tags : List Tag) (next : Except TransferError Unit → Session α)

/-- A client and its threaded engine, and the calls that have been answered so far. -/
structure Worked (α : Type) where
  client : Client α
  engine : Threaded
  transcript : List Exchange

namespace Worked

variable {α : Type}

/-- A session that is about to begin, whose client waits in the given way. -/
def paced (w : Window) (pacing : Pacing) (session : Session α) : Worked α :=
  ⟨.running session, .paced w pacing, []⟩

/-- A session that is about to begin, whose client waits for as long as it takes. -/
def start (w : Window) (session : Session α) : Worked α := paced w .unlimited session

/-- `ClientStep c e c' e' xs`: a step of the client, in which the calls `xs` are answered. A client
that waits for a transfer has no step before the worker has announced how it went, unless it gives
up: a transfer for which the client would have to wait longer than it does may be served before that
as well as after it. -/
inductive ClientStep :
    Client α → Threaded → Client α → Threaded → List Exchange → Prop where
  /-- A transfer is submitted, or refused because its tag is busy. -/
  | submit {tag : Tag} {t : Transfer} {next : Except TransferError Unit → Session α}
      {e e' : Threaded} {reply : Except TransferError Unit} (h : e.submit tag t = (reply, e')) :
      ClientStep (.running (.call (.submit tag t) next)) e (.running (next reply)) e'
        [⟨.submit tag t, reply⟩]
  /-- A wait comes to its end. -/
  | wait {tag : Tag} {next : Except TransferError (Option Buffer) → Session α} {e e' : Threaded}
      {reply : Except TransferError (Option Buffer)} (hlag : e.lag tag = 0)
      (h : e.collect tag = (reply, e')) :
      ClientStep (.running (.call (.wait tag) next)) e (.running (next reply)) e'
        [⟨.wait tag, reply⟩]
  /-- The client gives up waiting. -/
  | giveUp {tag : Tag} {next : Except TransferError (Option Buffer) → Session α} {e : Threaded}
      {delay : Delay} (h : e.givesUp tag = some delay) :
      ClientStep (.running (.call (.wait tag) next)) e (.running (next (.error (.timedOut tag))))
        { e with slots := e.slots.set tag none } [⟨.wait tag, .error (.timedOut tag)⟩]
  /-- The client begins to wait for all transfers in flight. -/
  | finish {next : Except TransferError Unit → Session α} {e : Threaded} :
      ClientStep (.running (.call .finish next)) e (.finishing e.slots.pending next) e []
  /-- One of these transfers went well. -/
  | collected {tag : Tag} {tags : List Tag} {next : Except TransferError Unit → Session α}
      {e e' : Threaded} {buffer : Option Buffer} (hlag : e.lag tag = 0)
      (h : e.collect tag = (.ok buffer, e')) :
      ClientStep (.finishing (tag :: tags) next) e (.finishing tags next) e' []
  /-- One of these transfers failed, so the others are not waited for. -/
  | failed {tag : Tag} {tags : List Tag} {next : Except TransferError Unit → Session α}
      {e e' : Threaded} {cause : TransferError} (hlag : e.lag tag = 0)
      (h : e.collect tag = (.error cause, e')) :
      ClientStep (.finishing (tag :: tags) next) e (.running (next (.error cause))) e'
        [⟨.finish, .error cause⟩]
  /-- The client gives up waiting for one of these transfers, and so for the others. -/
  | givenUp {tag : Tag} {tags : List Tag} {next : Except TransferError Unit → Session α}
      {e : Threaded} {delay : Delay} (h : e.givesUp tag = some delay) :
      ClientStep (.finishing (tag :: tags) next) e (.running (next (.error (.timedOut tag))))
        { e with slots := e.slots.set tag none } [⟨.finish, .error (.timedOut tag)⟩]
  /-- All of these transfers went well. -/
  | finished {next : Except TransferError Unit → Session α} {e : Threaded} :
      ClientStep (.finishing [] next) e (.running (next (.ok ()))) e [⟨.finish, .ok ()⟩]

/-- A step of the client or of the worker. Only the worker touches the data. -/
inductive Step : Worked α × Data → Worked α × Data → Prop where
  | client {c c' : Client α} {e e' : Threaded} {transcript exchanges : List Exchange} {data : Data}
      (h : ClientStep c e c' e' exchanges) :
      Step (⟨c, e, transcript⟩, data) (⟨c', e', transcript ++ exchanges⟩, data)
  | worker {c : Client α} {e e' : Threaded} {transcript : List Exchange} {data data' : Data}
      (hqueue : e.queue ≠ []) (h : e.serve data = (e', data')) :
      Step (⟨c, e, transcript⟩, data) (⟨c, e', transcript⟩, data')

end Worked

/-! ### What is left to do -/

namespace Client

variable {α : Type}

/-- How a client ends on a sequential engine. -/
def run : Client α → Sequential → Data → α × Sequential × Data
  | .running session, s, d => session.run s d
  | .finishing tags next, s, d =>
    match s.waitEach tags with
    | (reply, s) => (next reply).run s d

/-- The calls that a client has answered by a sequential engine before it ends. -/
def exchanges : Client α → Sequential → Data → List Exchange
  | .running session, s, d => session.transcript s d
  | .finishing tags next, s, d =>
    match s.waitEach tags with
    | (reply, s) => ⟨.finish, reply⟩ :: (next reply).transcript s d

end Client

namespace Worked

variable {α : Type} {c c' : Client α} {e e' : Threaded} {xs transcript : List Exchange}
variable {s : Sequential} {data d : Data}

/-- A step of the client leaves the same to do as it does on a sequential engine. -/
theorem ClientStep.ahead (hstep : ClientStep c e c' e' xs) (h : Ahead e data s d) :
  ∃ s' d', Ahead e' data s' d' ∧ c'.run s' d' = c.run s d ∧
    xs ++ c'.exchanges s' d' = c.exchanges s d
  := by
  cases hstep with
  | @submit tag t next _ _ reply hsubmit =>
    obtain ⟨s', d', hsubmit', hahead⟩ := h.submit tag t
    rw [hsubmit] at hsubmit' hahead
    have hanswer : TransferEngine.answer (.submit tag t) s d = (reply, s', d') := hsubmit'
    use s', d', hahead
    constructor
    · simp only [Client.run, Session.run, hanswer]
    · simp only [Client.exchanges, Session.transcript, hanswer, List.singleton_append]
  | @wait tag next _ _ reply hlag hcollect =>
    obtain ⟨s', hwait, hahead⟩ := h.collect hlag
    rw [hcollect] at hwait hahead
    have hanswer : TransferEngine.answer (.wait tag) s d = (reply, s', d) := by
      simp only [TransferEngine.answer, hwait]
    use s', d, hahead
    constructor
    · simp only [Client.run, Session.run, hanswer]
    · simp only [Client.exchanges, Session.transcript, hanswer, List.singleton_append]
  | giveUp hgivesUp =>
    rw [Threaded.givesUp_of_patient h.patient] at hgivesUp
    cases hgivesUp
  | givenUp hgivesUp =>
    rw [Threaded.givesUp_of_patient h.patient] at hgivesUp
    cases hgivesUp
  | @finish next _ =>
    have hanswer : TransferEngine.answer .finish s d
        = ((s.waitEach e.slots.pending).1, (s.waitEach e.slots.pending).2, d) := by
      simp only [TransferEngine.answer, Sequential.finish, h.pending_eq]
    use s, d, h
    constructor
    · simp only [Client.run, Session.run, hanswer]
    · simp only [Client.exchanges, Session.transcript, hanswer, List.nil_append]
  | @collected tag tags next _ _ buffer hlag hcollect =>
    obtain ⟨s', hwait, hahead⟩ := h.collect hlag
    rw [hcollect] at hwait hahead
    use s', d, hahead
    constructor
    · simp only [Client.run, Sequential.waitEach, hwait]
    · simp only [Client.exchanges, Sequential.waitEach, hwait, List.nil_append]
  | @failed tag tags next _ _ cause hlag hcollect =>
    obtain ⟨s', hwait, hahead⟩ := h.collect hlag
    rw [hcollect] at hwait hahead
    use s', d, hahead
    constructor
    · simp only [Client.run, Sequential.waitEach, hwait]
    · simp only [Client.exchanges, Sequential.waitEach, hwait, List.singleton_append]
  | @finished next _ =>
    use s, d, h
    constructor
    · rfl
    · rfl

/-! ### Progress -/

/-- When the worker has served its queue, a client that has not ended can go on. -/
theorem exists_clientStep (h : Ahead e data s d) (hqueue : e.queue = []) :
  (∃ result, c = .running (.done result)) ∨ ∃ c' e' xs, ClientStep c e c' e' xs
  := by
  have hlag := h.lag_eq_zero hqueue
  cases c with
  | running session =>
    cases session with
    | done result => exact .inl ⟨result, rfl⟩
    | call request next =>
      right
      cases request with
      | submit tag t => exact ⟨_, _, _, .submit rfl⟩
      | wait tag => exact ⟨_, _, _, .wait (hlag tag) rfl⟩
      | finish => exact ⟨_, _, _, .finish⟩
  | finishing tags next =>
    right
    cases tags with
    | nil => exact ⟨_, _, _, .finished⟩
    | cons tag tags =>
      cases hcollect : e.collect tag with
      | mk reply e' =>
        cases reply with
        | error cause => exact ⟨_, _, _, .failed (hlag tag) hcollect⟩
        | ok buffer => exact ⟨_, _, _, .collected (hlag tag) hcollect⟩

/-- The state in which a client and its engine end: the queue has been served, and the result, the
calls and the data are those of a sequential engine. -/
def EndsLike (c : Client α) (transcript : List Exchange) (s : Sequential) (d : Data)
    (st : Worked α × Data) : Prop :=
  ∃ e, st.1 = ⟨.running (.done (c.run s d).1), e, transcript ++ c.exchanges s d⟩ ∧
    e.queue = [] ∧ Ahead e st.2 (c.run s d).2.1 (c.run s d).2.2

/-- Wherever the worker is, all executions of a client end as it ends on a sequential engine. -/
def Sequenced (c : Client α) : Prop :=
  ∀ {e data s d}, Ahead e data s d → ∀ transcript,
    Inevitably Step (EndsLike c transcript s d) (⟨c, e, transcript⟩, data)

/-- It is enough to look at the steps of the client, however many steps the worker takes between
them. -/
theorem sequenced_of_clientStep
    (hclient : ∀ {e c' e' xs}, ClientStep c e c' e' xs → Sequenced c') :
  Sequenced c
  := by
  intro e data s d h transcript
  generalize hn : e.queue.length = n
  induction n using Nat.strongRecOn generalizing e data with
  | ind n ih =>
    constructor
    · intro st hstep
      cases hstep with
      | @client _ c' _ e' _ xs _ hstep =>
        obtain ⟨s', d', hahead, hrun, hexchanges⟩ := hstep.ahead h
        apply (hclient hstep hahead (transcript ++ xs)).mono
        intro st hends
        rw [EndsLike, hrun, List.append_assoc, hexchanges] at hends
        apply hends
      | @worker _ _ e' _ _ data' hqueue hserve =>
        have hahead := h.serve
        have hlength := Threaded.length_queue_serveMany 1 e data
        rw [Threaded.serveMany_succ_last, Threaded.serveMany, hserve] at hlength
        rw [hserve] at hahead
        apply ih _ _ hahead rfl
        have hpos := List.length_pos_iff.mpr hqueue
        have hlength : e'.queue.length = e.queue.length - 1 := hlength
        omega
    · intro hstuck
      have hqueue : e.queue = [] := by
        by_contra hne
        apply hstuck _ (.worker hne rfl)
      rcases exists_clientStep (c := c) h hqueue with ⟨result, rfl⟩ | ⟨c', e', xs, hstep⟩
      · use e
        constructor
        · rw [Client.exchanges, Session.transcript, List.append_nil]
          rfl
        · exact ⟨hqueue, h⟩
      · exact absurd (.client hstep) (hstuck _)

theorem sequenced_finishing {next : Except TransferError Unit → Session α}
    (hnext : ∀ reply, Sequenced (.running (next reply))) (tags : List Tag) :
  Sequenced (.finishing tags next)
  := by
  induction tags with
  | nil =>
    apply sequenced_of_clientStep
    intro e c' e' xs hstep
    cases hstep with
    | finished => exact hnext (.ok ())
  | cons tag tags ih =>
    apply sequenced_of_clientStep
    intro e c' e' xs hstep
    cases hstep with
    | collected => exact ih
    | failed => exact hnext (.error _)
    | givenUp => exact hnext (.error _)

theorem sequenced_running (session : Session α) :
  Sequenced (.running session)
  := by
  induction session with
  | done result =>
    apply sequenced_of_clientStep
    intro e c' e' xs hstep
    cases hstep
  | call request next ih =>
    apply sequenced_of_clientStep
    intro e c' e' xs hstep
    cases hstep with
    | submit => exact ih _
    | wait => exact ih _
    | giveUp => exact ih _
    | finish => exact sequenced_finishing ih _

/-- All executions of a session lead to the result and the data of a sequential engine. -/
theorem inevitably_of_run {session : Session α} {result : α} {s' : Sequential} {d' : Data}
    (h : Ahead e data s d) (hrun : session.run s d = (result, s', d')) :
  Inevitably Step
    (fun st => st.1.client = .running (.done result) ∧ st.1.engine.queue = [] ∧ st.2 = d')
    (⟨.running session, e, []⟩, data)
  := by
  apply (sequenced_running session h []).mono
  rintro ⟨st, data'⟩ ⟨e', hst, hqueue, hahead⟩
  have hdata := hahead.data_eq
  rw [Threaded.close_of_queue_nil hqueue] at hdata
  rw [Client.run, hrun] at hst hdata
  subst hst
  exact ⟨rfl, hqueue, hdata⟩

end Worked

/-- Under every schedule of the client and the worker, a session on a threaded engine comes to an
end, and the replies to its calls, its result and the data once the worker has served everything are
those of a sequential engine. If all calls are valid, they are those of an immediate engine too. -/
theorem Session.worked_sequential {α : Type} (w : Window) (session : Session α) (data : Data) :
  Inevitably Worked.Step
      (fun st => ∃ e, e.queue = [] ∧
        st = (⟨.running (.done (session.run (Sequential.new w) data).1), e,
          session.transcript (Sequential.new w) data⟩, (session.run (Sequential.new w) data).2.2))
      (.start w session, data)
    ∧ ((∀ x ∈ session.transcript (Sequential.new w) data, x.request.Valid w) →
        session.transcript (Sequential.new w) data = session.transcript (Immediate.new w) data
        ∧ (session.run (Sequential.new w) data).1 = (session.run (Immediate.new w) data).1
        ∧ (session.run (Sequential.new w) data).2.2 = (session.run (Immediate.new w) data).2.2)
  := by
  constructor
  · apply (Worked.sequenced_running session (Ahead.new w data) []).mono
    rintro ⟨st, data'⟩ ⟨e, hst, hqueue, hahead⟩
    use e, hqueue
    have hdata := hahead.data_eq
    rw [Threaded.close_of_queue_nil hqueue] at hdata
    apply Prod.ext
    · apply hst
    · apply hdata
  · intro hvalid
    apply (session.run_sequential_eq_immediate (Session.along_iff_transcript.mpr hvalid)).2

/-- Store a record under one tag and, before waiting for that, fetch it under another one. -/
def Session.putThenGet (stored fetched : Buffer) :
    Session (Except TransferError (Option Buffer)) := do
  let _ ← request (.submit ⟨0⟩ (.put ⟨0, 1⟩ stored))
  let _ ← request (.submit ⟨1⟩ (.get 0 ⟨0, 1⟩ fetched))
  request (.wait ⟨1⟩)

/-- Whenever the worker gets to its copies, the record that is fetched is the one
that was stored. -/
theorem Session.worked_sequential_put_get :
  (∀ x ∈ (putThenGet ⟨.out, #[Lanes.splat 2.5]⟩ ⟨.staged 0, #[Lanes.zero]⟩).transcript
      (Sequential.new ⟨⟨0, 2⟩, 1, 2⟩) #[Lanes.zero, Lanes.zero],
      x.request.Valid ⟨⟨0, 2⟩, 1, 2⟩)
    ∧ ((putThenGet ⟨.out, #[Lanes.splat 2.5]⟩ ⟨.staged 0, #[Lanes.zero]⟩).run
        (Immediate.new ⟨⟨0, 2⟩, 1, 2⟩) #[Lanes.zero, Lanes.zero]).1
      = .ok (some ⟨.staged 0, #[Lanes.splat 2.5]⟩)
    ∧ Inevitably Worked.Step
      (fun st => st.1.client = .running (.done (.ok (some ⟨.staged 0, #[Lanes.splat 2.5]⟩))) ∧
        st.2 = #[Lanes.splat 2.5, Lanes.zero])
      (.start ⟨⟨0, 2⟩, 1, 2⟩ (putThenGet ⟨.out, #[Lanes.splat 2.5]⟩ ⟨.staged 0, #[Lanes.zero]⟩),
        #[Lanes.zero, Lanes.zero])
  := by
  obtain ⟨hends, hsame⟩ := worked_sequential ⟨⟨0, 2⟩, 1, 2⟩
    (putThenGet ⟨.out, #[Lanes.splat 2.5]⟩ ⟨.staged 0, #[Lanes.zero]⟩) #[Lanes.zero, Lanes.zero]
  have halong : (putThenGet ⟨.out, #[Lanes.splat 2.5]⟩ ⟨.staged 0, #[Lanes.zero]⟩).Along
      (fun request _ _ => request.Valid ⟨⟨0, 2⟩, 1, 2⟩) (Sequential.new ⟨⟨0, 2⟩, 1, 2⟩)
      #[Lanes.zero, Lanes.zero] := ⟨rfl, rfl, trivial, trivial⟩
  have hvalid := along_iff_transcript.mp halong
  obtain ⟨-, hresult, -⟩ := hsame hvalid
  use hvalid
  constructor
  · apply hresult.symm
  · apply hends.mono
    rintro _ ⟨e, -, rfl⟩
    exact ⟨rfl, rfl⟩

end ReplicaSum
