import ReplicaSum.Proofs.Connection

/-!
# Every request is served

Whatever a client does with its copy worker, and whenever it lets go of its engine: the two of them
never wait for each other, nobody finds that the other side is gone, and the worker exits after it
has served all requests in their order. Seen without the channels, the two take the steps of
`Worked`; the steps in between that only concern the channels are few in a row, so that all
executions come to an end.
-/

namespace ReplicaSum

/-! ### Nothing gets lost -/

namespace CopyWorker

variable {worker : CopyWorker}

theorem eq_serving_of_mem {ticket : Nat} {t : Transfer} (h : (ticket, t) ∈ worker.request) :
  worker = .serving ticket t
  := by
  cases worker with
  | serving =>
    cases List.mem_singleton.mp h
    rfl
  | _ => cases h

theorem exists_announcing (h : worker.outcome ≠ []) :
  ∃ ticket outcome, worker = .announcing ticket outcome
  := by
  cases worker with
  | announcing ticket outcome => exact ⟨ticket, outcome, rfl⟩
  | _ => exact absurd rfl h

end CopyWorker

namespace Wired

variable {Channel α : Type} [OneShot Channel] {w : Window} {st st' : Wired Channel α}
variable {d₀ data data' : Data}

/-- Where the transfer with a ticket is found before it is received. -/
inductive Underway (st : Wired Channel α) (ticket : Nat) : Prop where
  /-- It is in the queue. -/
  | queued {t : Transfer} (h : (ticket, t) ∈ st.queue)
  /-- The worker is about to carry it out. -/
  | serving {t : Transfer} (h : st.worker = .serving ticket t)
  /-- The worker is about to say how it went. -/
  | announcing {outcome : Except TransferError Buffer} (h : st.worker = .announcing ticket outcome)
  /-- Its channel holds how it went. -/
  | delivered {channel : Channel} {outcome : Except TransferError Buffer}
      (hchannel : st.channels[ticket]? = some channel)
      (hcontent : OneShot.content channel = some outcome)

/-- A transfer whose outcome has not been announced is in the queue or with the worker. -/
theorem InOrder.underway {ticket : Nat} (ho : st.InOrder) (h : st.Announced)
    (hlt : ticket < st.channels.length) (hle : st.nServed ≤ ticket) :
  st.Underway ticket
  := by
  have hlength := h.length_carried
  by_cases hcarried : ticket < st.carried.length
  · have hne : st.worker.outcome ≠ [] := by
      intro hnil
      rw [hnil, List.length_nil] at hlength
      omega
    obtain ⟨ticket', outcome, hworker⟩ := CopyWorker.exists_announcing hne
    have hticket := h.ticket_eq ticket' outcome hworker
    rw [hworker, CopyWorker.outcome, List.length_singleton] at hlength
    obtain rfl : ticket' = ticket := by omega
    exact .announcing hworker
  · have hmem : ticket ∈ st.unserved.map Prod.fst := by
      rw [ho.tickets, List.mem_range'_1]
      have := ho.channels
      omega
    obtain ⟨⟨_, t⟩, ht, rfl⟩ := List.mem_map.mp hmem
    rcases List.mem_append.mp ht with hrequest | hqueue
    · exact .serving (CopyWorker.eq_serving_of_mem hrequest)
    · exact .queued hqueue

/-- What a client is blocked on is under way. -/
theorem Sound.underway (h : Sound w d₀ st data) {tag : Tag} {ticket : Nat}
    (hwaiting : st.waiting = some (tag, ticket)) :
  st.Underway ticket
  := by
  obtain ⟨hengine, -, -⟩ := h.held.waits tag ticket hwaiting
  obtain ⟨channel, hchannel, hreceiver⟩ :=
    h.held.hasReceiver tag ticket ⟨hengine, .inr hwaiting⟩
  obtain ⟨hlt, -⟩ := List.getElem?_eq_some_iff.mp hchannel
  by_cases hserved : ticket < st.nServed
  · have hagrees := h.announced.agrees ticket channel hchannel
    rw [List.getElem?_eq_getElem (h.announced.length_eq ▸ hserved)] at hagrees
    exact .delivered hchannel (hagrees hreceiver)
  · exact h.inOrder.underway h.announced hlt (Nat.le_of_not_lt hserved)

/-! ### Somebody can go on -/

/-- There is room for what a worker announces. -/
theorem Sound.exists_send (h : Sound w d₀ st data) {ticket : Nat}
    {outcome : Except TransferError Buffer} (hworker : st.worker = .announcing ticket outcome) :
  ∃ channel channel' : Channel,
    st.channels[ticket]? = some channel ∧ OneShot.send? channel outcome = some channel'
  := by
  have hticket := h.announced.ticket_eq ticket outcome hworker
  have hlt : ticket < st.channels.length := by
    rw [h.inOrder.channels, h.announced.length_carried, hworker, CopyWorker.outcome,
      List.length_singleton]
    omega
  have hchannel := List.getElem?_eq_getElem hlt
  have hagrees := h.announced.agrees ticket _ hchannel
  rw [List.getElem?_eq_none (Nat.le_of_eq (h.announced.length_eq.trans hticket.symm))] at hagrees
  obtain ⟨channel', hsend⟩ := hagrees.exists_send outcome
  exact ⟨_, channel', hchannel, hsend⟩

/-- A client that has its engine and is not blocked can go on, until it lets go of its engine. -/
theorem exists_step_of_waiting_none (hwaiting : st.waiting = none) (hengine : st.hasEngine = true)
    (hworker : ¬ st.worker.IsGone) (data : Data) :
  ∃ next, Step w (st, data) next
  := by
  -- A client that waits under a tag blocks, unless nothing is in flight under the tag.
  have hwaits : ∀ tag, st.client.WaitsFor tag → ∃ next, Step w (st, data) next := by
    intro tag hclient
    cases hslot : st.slots.get? tag with
    | none =>
      obtain ⟨c', xs, hresumes⟩ := hclient.exists_resumes (.ok none)
      exact ⟨_, .quiet hwaiting (.nothing hslot hresumes)⟩
    | some ticket => exact ⟨_, .block hwaiting hclient hslot⟩
  -- Any other call is answered at once.
  have hquiet : ∀ c' xs, st.client.Quiet st.slots st.worker c' xs →
      ∃ next, Step w (st, data) next :=
    fun _ _ h => ⟨_, .quiet hwaiting h⟩
  cases hclient : st.client with
  | running session =>
    rw [hclient] at hwaits hquiet
    cases session with
    | done result => exact ⟨_, .drop hclient hengine⟩
    | call request next =>
      cases request with
      | submit tag t =>
        cases hslot : st.slots.get? tag with
        | none => exact ⟨_, .submit hwaiting hclient hslot hworker⟩
        | some ticket =>
          apply hquiet _ _ (.busy _)
          rw [TagSlots.isPending, hslot]
          rfl
      | wait tag => exact hwaits tag .wait
      | finish => exact hquiet _ _ .finish
  | finishing tags next =>
    rw [hclient] at hwaits hquiet
    cases tags with
    | nil => exact hquiet _ _ .finished
    | cons tag tags => exact hwaits tag .finish

/-- When the worker is idle and there are no requests, a client that is blocked has been sent what
it is blocked on. -/
theorem Sound.exists_receive (h : Sound w d₀ st data) (hworker : st.worker = .idle)
    (hqueue : st.queue = []) {tag : Tag} {ticket : Nat}
    (hwaiting : st.waiting = some (tag, ticket)) :
  ∃ next, Step w (st, data) next
  := by
  obtain ⟨-, hclient, -⟩ := h.held.waits tag ticket hwaiting
  cases h.underway hwaiting with
  | queued hmem =>
    rw [hqueue] at hmem
    cases hmem
  | serving hserving =>
    rw [hworker] at hserving
    cases hserving
  | announcing hannouncing =>
    rw [hworker] at hannouncing
    cases hannouncing
  | @delivered channel outcome hchannel hcontent =>
    have hreceive := OneShot.receive?_of_content tag hcontent
    obtain ⟨c', xs, hresumes⟩ := hclient.exists_resumes (outcome.map some)
    exact ⟨_, .receive hwaiting hchannel hreceive hresumes⟩

/-- Somebody can go on until the worker has exited. -/
theorem Sound.exists_step (h : Sound w d₀ st data) :
  st.worker = .exited ∨ ∃ next, Step w (st, data) next
  := by
  cases hworker : st.worker with
  | idle =>
    right
    cases hqueue : st.queue with
    | cons request queue => exact ⟨_, .take hworker hqueue⟩
    | nil =>
      cases hwaiting : st.waiting with
      | some blocked => exact h.exists_receive hworker hqueue hwaiting
      | none =>
        cases hengine : st.hasEngine with
        | true =>
          have hgone := h.connected.not_isGone hengine
          exact exists_step_of_waiting_none hwaiting hengine hgone _
        | false => exact ⟨_, .exit hworker hqueue hengine⟩
  | serving ticket t => exact .inr ⟨_, .copy hworker (h.safe ticket t hworker) rfl⟩
  | announcing ticket outcome =>
    obtain ⟨channel, channel', hchannel, hsend⟩ := h.exists_send hworker
    exact .inr ⟨_, .announce hworker hchannel hsend⟩
  | exited => exact .inl rfl
  | panicked => exact absurd hworker h.connected.unharmed

/-- What holds in a state that a client and its worker have reached from the data `d₀` on. They do
not wait for each other, neither of them breaks down or is cut off, and no accepted transfer gets
lost. A worker that has exited has left nothing behind. -/
structure Healthy (w : Window) (d₀ : Data) (st : Wired Channel α) (data : Data) : Prop where
  underway : ∀ tag ticket, st.waiting = some (tag, ticket) → st.Underway ticket
  moves : st.worker = .exited ∨ ∃ next, Step w (st, data) next
  unharmed : st.worker ≠ .panicked
  sends : ∀ ticket outcome, st.worker = .announcing ticket outcome →
    ∃ channel channel' : Channel,
      st.channels[ticket]? = some channel ∧ OneShot.send? channel outcome = some channel'
  said : ∀ x ∈ st.transcript, ∀ tag, x.error? ≠ some (.disconnected tag)
  kept : accepted st.transcript = st.carried.map Prod.fst ++ st.unserved.map Prod.snd
  served : st.worker = .exited →
    st.queue = [] ∧ st.carried.map Prod.fst = accepted st.transcript ∧
      st.nServed = (accepted st.transcript).length ∧
      data = carryOut w d₀ (accepted st.transcript)

/-- A worker that has exited has carried out all accepted transfers, in their order. -/
theorem Sound.carried_eq (h : Sound w d₀ st data) (hworker : st.worker = .exited) :
  st.carried.map Prod.fst = accepted st.transcript
  := by
  obtain ⟨-, hqueue⟩ := h.connected.exited hworker
  have haccepted := h.inOrder.accepted_eq
  rw [unserved, hworker, hqueue] at haccepted
  exact (haccepted.trans (List.append_nil _)).symm

/-- A worker that has exited has counted all accepted transfers. -/
theorem Sound.nServed_eq (h : Sound w d₀ st data) (hworker : st.worker = .exited) :
  st.nServed = (accepted st.transcript).length
  := by
  rw [← h.carried_eq hworker, List.length_map, h.announced.length_carried, hworker]
  rfl

theorem Sound.healthy (h : Sound w d₀ st data) :
  Healthy w d₀ st data
  where
  underway _ _ hwaiting := h.underway hwaiting
  moves := h.exists_step
  unharmed := h.connected.unharmed
  sends _ _ hworker := h.exists_send hworker
  said := h.connected.said
  kept := h.inOrder.accepted_eq
  served hworker := by
    use (h.connected.exited hworker).2, h.carried_eq hworker, h.nServed_eq hworker
    rw [← h.carried_eq hworker]
    apply h.data_eq

/-- Soundness is kept along an execution. -/
theorem Sound.reachable {st st' : Wired Channel α × Data} (h : Sound w d₀ st.1 st.2)
    (hst : Relation.ReflTransGen (Step w) st st') :
  Sound w d₀ st'.1 st'.2
  := by
  induction hst with
  | refl => exact h
  | tail _ hstep ih => exact hstep.sound ih

end Wired

/-! ### Without the channels -/

namespace Client

open Worked (ClientStep)

variable {α : Type} {c c' : Client α} {e e' : Threaded} {tag : Tag} {xs : List Exchange}
variable {reply : Except TransferError (Option Buffer)} {worker : CopyWorker}

theorem Resumes.clientStep (h : c.Resumes tag reply c' xs) (hlag : e.lag tag = 0)
    (hcollect : e.collect tag = (reply, e')) :
  ClientStep c e c' e' xs
  := by
  cases h with
  | wait => exact .wait hlag hcollect
  | collected => exact .collected hlag hcollect
  | failed => exact .failed hlag hcollect

theorem Quiet.clientStep (h : c.Quiet e.slots worker c' xs) (hworker : ¬ worker.IsGone) :
  ClientStep c e c' e xs
  := by
  cases h with
  | busy hbusy => exact .submit (Threaded.submit_of_isPending hbusy _)
  | cutOff _ hgone => exact absurd hgone hworker
  | nothing hfree h =>
    apply h.clientStep
    · rw [Threaded.lag, hfree]
    · apply Threaded.collect_of_free hfree
  | finish => exact .finish
  | finished => exact .finished

end Client

/-- A bound on the steps of a worker in a row that only concern the channels. -/
def CopyWorker.slack : CopyWorker → Nat
  | .announcing .. => 3
  | .idle => 2
  | .serving .. => 1
  | .exited | .panicked => 0

namespace Wired

variable {Channel α : Type} {w : Window} {st st' : Wired Channel α} {d₀ data data' : Data}

/-- The slots, with the ticket that the client is blocked on still in its slot. -/
def allSlots (st : Wired Channel α) : TagSlots Nat :=
  match st.waiting with
  | none => st.slots
  | some (tag, ticket) => st.slots.set tag (some ticket)

theorem allSlots_of_none (h : st.waiting = none) :
  st.allSlots = st.slots
  := by
  rw [allSlots, h]

theorem allSlots_of_some {tag : Tag} {ticket : Nat} (h : st.waiting = some (tag, ticket)) :
  st.allSlots = st.slots.set tag (some ticket)
  := by
  rw [allSlots, h]

/-- A client that is blocked has taken a ticket out of its slot. -/
theorem allSlots_of_blocked {tag : Tag} {ticket : Nat} (h : st.waiting = none)
    (hslot : st.slots.get? tag = some ticket) (hslots : st'.slots = st.slots.set tag none)
    (hwaiting : st'.waiting = some (tag, ticket)) :
  st'.allSlots = st.allSlots
  := by
  rw [allSlots_of_some hwaiting, hslots, TagSlots.set_set, TagSlots.set_of_get? hslot,
    allSlots_of_none h]

theorem get?_allSlots {tag : Tag} {ticket : Nat} (h : st.waiting = some (tag, ticket)) :
  st.allSlots.get? tag = some ticket
  := by
  rw [allSlots_of_some h, TagSlots.get?_set, if_pos rfl]

/-- The threaded engine of a client and a worker that serves the window `w`. A transfer leaves the
queue and is announced at the moment in which it is carried out. -/
def engine (w : Window) (st : Wired Channel α) : Threaded :=
  ⟨w, st.allSlots, st.unserved.map Prod.snd, (st.carried.map Prod.snd).toArray, .unlimited⟩

/-- A client and a worker, seen without the channels between them. -/
def worked (w : Window) (st : Wired Channel α) : Worked α := ⟨st.client, st.engine w, st.transcript⟩

/-- A bound on the steps in a row that only concern the channels. -/
def slack (st : Wired Channel α) : Nat :=
  st.worker.slack + st.waiting.isNone.toNat + st.hasEngine.toNat

/-- Seen without the channels, nothing happens when the worker goes on with the same requests. -/
theorem worked_of_worker (st : Wired Channel α) {worker : CopyWorker}
    {queue : List (Nat × Transfer)} (hunserved : worker.request ++ queue = st.unserved)
    (hslack : worker.slack < st.worker.slack)
    (channels : List Channel) (nServed : Nat) (data : Data) :
  (worked w { st with worker, queue, channels, nServed }, data) = (st.worked w, data)
    ∧ slack { st with worker, queue, channels, nServed } < st.slack
  := by
  constructor
  · rw [worked, engine, unserved, hunserved]
    rfl
  · rw [slack, slack]
    apply Nat.add_lt_add_right (Nat.add_lt_add_right hslack _)

/-- A transfer that is carried out is served. -/
theorem serve_eq {ticket : Nat} {t : Transfer} {outcome : Except TransferError Buffer}
    (hworker : st.worker = .serving ticket t) (hperform : t.perform w data = (outcome, data')) :
  (st.engine w).queue ≠ []
    ∧ (st.engine w).serve data = (engine w { st with
        worker := .announcing ticket outcome,
        carried := st.carried ++ [(t, outcome)] }, data')
  := by
  have hqueue : (st.engine w).queue = t :: st.queue.map Prod.snd := by
    rw [engine, unserved, hworker]
    rfl
  constructor
  · rw [hqueue]
    apply List.cons_ne_nil
  · have hperform' : t.perform (st.engine w).window data = (outcome, data') := hperform
    rw [Threaded.serve, hqueue]
    simp only [hperform']
    simp only [engine, allSlots, unserved, List.map_append, List.push_toArray]
    rfl

variable [OneShot Channel]

/-- An outcome that is received under a tag is collected under it. -/
theorem Sound.collect_eq (h : Sound w d₀ st data) {tag : Tag} {ticket : Nat} {channel : Channel}
    {outcome : Except TransferError Buffer} (hwaiting : st.waiting = some (tag, ticket))
    (hchannel : st.channels[ticket]? = some channel)
    (hreceive : OneShot.receive? channel tag = some outcome) :
  (st.engine w).lag tag = 0
    ∧ (st.engine w).collect tag = (outcome.map some, { st.engine w with slots := st.slots })
  := by
  obtain ⟨-, -, hfree⟩ := h.held.waits tag ticket hwaiting
  have hslots := allSlots_of_some hwaiting
  have hslot : (st.engine w).slots.get? tag = some ticket := get?_allSlots hwaiting
  have houtcome := outcome_mem_announced h.announced h.held hwaiting hchannel hreceive
  have hserved : (st.engine w).served[ticket]? = some outcome := by
    rw [engine, List.getElem?_toArray]
    rw [Wired.announced, List.getElem?_take] at houtcome
    split at houtcome
    · exact houtcome
    · cases houtcome
  constructor
  · obtain ⟨hlt, -⟩ := Array.getElem?_eq_some_iff.mp hserved
    rw [Threaded.lag, hslot]
    exact Nat.sub_eq_zero_of_le hlt
  · rw [Threaded.collect_of_served hslot hserved]
    rw [engine, hslots, TagSlots.set_set, TagSlots.set_none hfree]

/-- A request that is sent is queued. -/
theorem Sound.submit_eq (h : Sound w d₀ st data) {tag : Tag} (hwaiting : st.waiting = none)
    (hfree : st.slots.get? tag = none) (t : Transfer) (client : Client α)
    (transcript : List Exchange) :
  (st.engine w).submit tag t = (.ok (), engine w { st with
    client, transcript,
    slots := st.slots.set tag (some st.channels.length),
    queue := st.queue ++ [(st.channels.length, t)],
    channels := st.channels ++ [OneShot.new] })
  := by
  have hslots : (st.engine w).slots = st.slots := allSlots_of_none hwaiting
  have hticket : (st.engine w).served.size + (st.engine w).queue.length = st.channels.length := by
    rw [h.inOrder.channels, engine, List.size_toArray, List.length_map, List.length_map]
  rw [← hslots] at hfree
  rw [Threaded.submit_of_free hfree, hticket]
  simp only [engine, allSlots, hwaiting, unserved, List.map_append, List.append_assoc]
  rfl

/-- Every step is one of the client or of the worker of `Worked`, or only concerns the channels. -/
theorem Step.worked (hstep : Step w (st, data) (st', data')) (h : Sound w d₀ st data) :
  Worked.Step (st.worked w, data) (st'.worked w, data')
    ∨ ((st'.worked w, data') = (st.worked w, data) ∧ st'.slack < st.slack)
  := by
  cases hstep with
  | quiet hwaiting hquiet =>
    left
    have hgone := h.connected.not_isGone (h.held.hasEngine_of_quiet hquiet)
    have hslots : st.slots = (st.engine w).slots := (allSlots_of_none hwaiting).symm
    rw [hslots] at hquiet
    exact .client (hquiet.clientStep hgone)
  | submit hwaiting hclient hfree =>
    left
    rw [Wired.worked, hclient]
    exact .client (.submit (h.submit_eq hwaiting hfree _ _ _))
  | block hwaiting hclient hslot =>
    right
    constructor
    · rw [Wired.worked, Wired.worked, engine, engine, allSlots_of_blocked hwaiting hslot rfl rfl]
      rfl
    · rw [slack, slack, hwaiting]
      apply Nat.add_lt_add_right (Nat.lt_succ_self _)
  | receive hwaiting hchannel hreceive hclient =>
    left
    obtain ⟨hlag, hcollect⟩ := h.collect_eq hwaiting hchannel hreceive
    exact .client (hclient.clientStep hlag hcollect)
  | drop _ hengine =>
    right
    use rfl
    rw [slack, slack, hengine]
    apply Nat.lt_succ_self
  | take hworker hqueue =>
    right
    refine st.worked_of_worker ?_ ?_ _ _ data
    · rw [unserved, hworker, hqueue]
      rfl
    · rw [hworker]
      apply Nat.lt_succ_self
  | copy hworker hbounds hperform =>
    left
    obtain ⟨hqueue, hserve⟩ := serve_eq hworker hperform
    exact .worker hqueue hserve
  | panic hworker hcheck hbounds => exact absurd (h.safe _ _ hworker hcheck) hbounds
  | announce hworker =>
    right
    refine st.worked_of_worker ?_ ?_ _ _ data
    · rw [unserved, hworker]
      rfl
    · rw [hworker]
      apply Nat.lt_succ_self
  | exit hworker =>
    right
    refine st.worked_of_worker ?_ ?_ _ _ data
    · rw [unserved, hworker]
      rfl
    · rw [hworker]
      apply Nat.two_pos

/-- Seen without the channels, nobody can go on either once the worker has exited. -/
theorem Sound.worked_stuck (h : Sound w d₀ st data) (hworker : st.worker = .exited) :
  ∀ next, ¬ Worked.Step (st.worked w, data) next
  := by
  obtain ⟨hengine, hqueue⟩ := h.connected.exited hworker
  obtain ⟨result, hclient⟩ := h.held.ended hengine
  intro next hstep
  rw [Wired.worked, hclient] at hstep
  cases hstep with
  | client hstep => cases hstep
  | worker hne =>
    apply hne
    rw [engine, unserved, hworker, hqueue]
    rfl

/-- From a sound state on, all executions end when the worker exits, as they do without the
channels. -/
theorem Sound.inevitably_exited {Q : Worked α × Data → Prop} (h : Sound w d₀ st data)
    (hends : Inevitably Worked.Step Q (st.worked w, data)) :
  Inevitably (Step w)
    (fun st => Sound w d₀ st.1 st.2 ∧ st.1.worker = .exited ∧ Q (st.1.worked w, st.2)) (st, data)
  := by
  refine Inevitably.abstract (fun st : Wired Channel α × Data => (st.1.worked w, st.2))
    (fun st => st.1.slack) ?_ ?_ h hends
  · rintro ⟨st, data₁⟩ ⟨st', data'⟩ hsound hstep
    exact ⟨hstep.sound hsound, hstep.worked hsound⟩
  · rintro ⟨st, data₁⟩ hsound
    rcases hsound.exists_step with hworker | hmoves
    · exact .inr ⟨hworker, hsound.worked_stuck hworker⟩
    · exact .inl hmoves

end Wired

/-! ### The running engine -/

namespace Threaded

/-- No request that waits for something gets a ticket. -/
theorem tickets_wait (e : Threaded) (tag : Tag) (data : Data) :
  (e.wait tag data).2.1.served.size + (e.wait tag data).2.1.queue.length
    = e.served.size + e.queue.length
  := by
  rw [wait]
  split
  · rw [← tickets_serveMany (e.lag tag) e data, await]
    simp only [collect]
    split <;> rfl
  · apply tickets_serveMany

theorem tickets_waitEach (tags : List Tag) (e : Threaded) (data : Data) :
  (waitEach tags e data).2.1.served.size + (waitEach tags e data).2.1.queue.length
    = e.served.size + e.queue.length
  := by
  induction tags generalizing e data with
  | nil => rfl
  | cons tag tags ih =>
    have hwait := e.tickets_wait tag data
    rw [waitEach]
    split
    · rename_i heq
      rw [heq] at hwait
      exact hwait
    · rename_i heq
      rw [heq] at hwait
      rw [ih]
      exact hwait

/-- A call takes a ticket just if it has a transfer accepted. -/
theorem tickets_answer (request : Call) (e : Threaded) (data : Data) {reply : request.Reply}
    {e' : Threaded} {data' : Data} (h : TransferEngine.answer request e data = (reply, e', data')) :
  e'.served.size + e'.queue.length
    = e.served.size + e.queue.length + (accepted [⟨request, reply⟩]).length
  := by
  cases request with
  | submit tag t =>
    have heq : ((e.submit tag t).1, (e.submit tag t).2, data) = (reply, e', data') := h
    by_cases hbusy : e.slots.isPending tag = true
    · rw [submit_of_isPending hbusy] at heq
      cases heq
      rfl
    · rw [submit_of_free (Option.not_isSome_iff_eq_none.mp hbusy)] at heq
      cases heq
      rw [List.length_append]
      rfl
  | wait tag =>
    have hwait := e.tickets_wait tag data
    have heq : e.wait tag data = (reply, e', data') := h
    rw [heq] at hwait
    exact hwait
  | finish =>
    have hfinish := tickets_waitEach e.slots.pending e data
    have heq : waitEach e.slots.pending e data = (reply, e', data') := h
    rw [heq] at hfinish
    exact hfinish

end Threaded

namespace Session

variable {α : Type}

theorem tickets_run (session : Session α) (e : Threaded) (data : Data) :
  (session.run e data).2.1.served.size + (session.run e data).2.1.queue.length
    = e.served.size + e.queue.length + (accepted (session.transcript e data)).length
  := by
  induction session generalizing e data with
  | done result => rfl
  | call request next ih =>
    rw [run, transcript]
    cases hanswer : TransferEngine.answer request e data with
    | mk reply answered =>
      obtain ⟨e', data'⟩ := answered
      have htickets := Threaded.tickets_answer request e data hanswer
      simp only
      rw [ih, htickets, Nat.add_assoc, ← List.length_append, ← accepted_append]
      rfl

/-- What the worker of a closed engine has counted are the transfers that have been accepted. -/
theorem nServed_close {w : Window} {data data' : Data} {session : Session α} {result : α}
    {e : Threaded} (hrun : session.run (Threaded.new w) data = (result, e, data')) :
  (e.close data').1.nServed = (accepted (session.transcript (Threaded.new w) data)).length
  := by
  have htickets := session.tickets_run (Threaded.new w) data
  rw [hrun] at htickets
  rw [Threaded.nServed, Threaded.size_served_close]
  exact htickets.trans (Nat.zero_add _)

end Session

/-! ### The worker's end -/

/-- Whatever a session does, and in whichever order the client and the worker take their steps, they
are healthy in every state that they reach. All executions end when the worker exits. By then the
session has ended as it does on a threaded engine, and the worker has counted every transfer that
was accepted. -/
theorem Session.wired_served (Channel : Type) [OneShot Channel] {α : Type} {w : Window}
    {data data' : Data} {session : Session α} {result : α} {e : Threaded} (hfits : w.Fits data.size)
    (hrun : session.run (Threaded.new w) data = (result, e, data')) :
  (∀ st : Wired Channel α × Data, Relation.ReflTransGen (Wired.Step w) (.start session, data) st →
      Wired.Healthy w data st.1 st.2)
    ∧ Inevitably (Wired.Step w)
      (fun st : Wired Channel α × Data => st.1.worker = .exited ∧
        st.1.client = .running (.done result) ∧
        st.1.transcript = session.transcript (Threaded.new w) data ∧
        st.1.nServed = (e.close data').1.nServed ∧ st.2 = (e.close data').2)
      (.start session, data)
    ∧ (e.close data').1.nServed = (accepted (session.transcript (Threaded.new w) data)).length
  := by
  refine ⟨?_, ?_, Session.nServed_close hrun⟩
  · intro st hst
    apply Wired.Sound.healthy
    apply Wired.Sound.reachable _ hst
    apply Wired.sound_start hfits
  · obtain ⟨htranscript, result', s', d', e', data₁, hsequential, hthreaded, hahead⟩ :=
      session.run_sequential_eq_threaded (Ahead.new w data)
    rw [hrun] at hthreaded
    cases hthreaded
    have hends := Worked.sequenced_running session (Ahead.new w data) []
    apply ((Wired.sound_start hfits session).inevitably_exited hends).mono
    rintro ⟨st, data₁⟩ ⟨hsound, hworker, e₁, hworked, hqueue, hahead₁⟩
    simp only [Client.run, hsequential] at hworked hahead₁
    have hexchanges : st.transcript = session.transcript (Threaded.new w) data := by
      rw [← htranscript]
      exact congrArg Worked.transcript hworked
    use hworker, congrArg Worked.client hworked, hexchanges
    constructor
    · rw [hsound.nServed_eq hworker, hexchanges, Session.nServed_close hrun]
    · have hdata := hahead₁.data_eq
      rw [Threaded.close_of_queue_nil hqueue] at hdata
      exact hdata.trans hahead.data_eq.symm

/-- The worker also serves the transfer that nobody waits for. -/
theorem Session.wired_served_put_get :
  Window.Fits ⟨⟨0, 2⟩, 1, 2⟩ (#[Lanes.zero, Lanes.zero] : Data).size
    ∧ Inevitably (Wired.Step ⟨⟨0, 2⟩, 1, 2⟩)
      (fun st : Wired PlainChannel _ × Data => st.1.worker = .exited ∧
        st.1.client = .running (.done (.ok (some ⟨.staged 0, #[Lanes.splat 2.5]⟩))) ∧
        st.1.nServed = 2 ∧ st.2 = #[Lanes.splat 2.5, Lanes.zero])
      (.start (putThenGet ⟨.out, #[Lanes.splat 2.5]⟩ ⟨.staged 0, #[Lanes.zero]⟩),
        #[Lanes.zero, Lanes.zero])
  := by
  have hfits : Window.Fits ⟨⟨0, 2⟩, 1, 2⟩ (#[Lanes.zero, Lanes.zero] : Data).size := by
    constructor <;> decide
  obtain ⟨e, data, hrun, hserved, hdata⟩ : ∃ e data',
      (putThenGet ⟨.out, #[Lanes.splat 2.5]⟩ ⟨.staged 0, #[Lanes.zero]⟩).run
          (Threaded.new ⟨⟨0, 2⟩, 1, 2⟩) #[Lanes.zero, Lanes.zero]
        = (.ok (some ⟨.staged 0, #[Lanes.splat 2.5]⟩), e, data') ∧
      (e.close data').1.nServed = 2 ∧ (e.close data').2 = #[Lanes.splat 2.5, Lanes.zero] :=
    ⟨_, _, rfl, rfl, rfl⟩
  obtain ⟨-, hends, -⟩ := wired_served PlainChannel hfits hrun
  use hfits
  apply hends.mono
  rintro st ⟨hworker, hclient, -, hcount, hst⟩
  exact ⟨hworker, hclient, hcount.trans hserved, hst.trans hdata⟩

end ReplicaSum
