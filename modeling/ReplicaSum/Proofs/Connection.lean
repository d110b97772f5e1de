import ReplicaSum.Proofs.Channels

/-!
# A client and its worker stay connected

What holds in every state that a client and its copy worker reach. Requests are carried out in the
order in which they were sent. A channel holds the outcome of its transfer once that has been
announced, and there is room for it until then. The client holds the receiving ends that it waits
for, and nobody meets a channel that the other side has let go of.
-/

namespace ReplicaSum

namespace Wired

variable {Channel α : Type} {w : Window} {st st' : Wired Channel α} {data data' : Data}

/-! ### Requests -/

/-- The requests that have been sent and not been carried out, the oldest first. -/
def unserved (st : Wired Channel α) : List (Nat × Transfer) := st.worker.request ++ st.queue

/-- The accepted transfers are those that have been carried out and, behind them, those that are
still to be. Their tickets number them in this order, and each of them has a channel. -/
structure InOrder (st : Wired Channel α) : Prop where
  tickets : st.unserved.map Prod.fst = List.range' st.carried.length st.unserved.length
  channels : st.channels.length = st.carried.length + st.unserved.length
  accepted_eq : accepted st.transcript = st.carried.map Prod.fst ++ st.unserved.map Prod.snd

theorem InOrder.congr (h : st.InOrder) (hunserved : st'.unserved = st.unserved)
    (hcarried : st'.carried = st.carried) (hchannels : st'.channels.length = st.channels.length)
    (haccepted : accepted st'.transcript = accepted st.transcript) :
  st'.InOrder
  where
  tickets := by rw [hunserved, hcarried, h.tickets]
  channels := by rw [hunserved, hcarried, hchannels, h.channels]
  accepted_eq := by rw [hunserved, hcarried, haccepted, h.accepted_eq]

/-- The worker's next steps are in bounds. -/
def Safe (w : Window) (st : Wired Channel α) (data : Data) : Prop :=
  ∀ ticket t, st.worker = .serving ticket t → t.check w = .ok () → t.InBounds w data.size

/-- Every step keeps the requests in their order. -/
theorem Step.inOrder [OneShot Channel] (hstep : Step w (st, data) (st', data'))
    (hsafe : st.Safe w data) (h : st.InOrder) :
  st'.InOrder
  := by
  cases hstep with
  | quiet _ hquiet =>
    refine h.congr rfl rfl rfl ?_
    rw [accepted_append, hquiet.accepted_eq_nil, List.append_nil]
  | @submit _ _ tag t next =>
    have hunserved : st.worker.request ++ (st.queue ++ [(st.channels.length, t)])
        = st.unserved ++ [(st.channels.length, t)] := by
      rw [unserved, List.append_assoc]
    constructor
    · rw [unserved, hunserved, List.map_append, h.tickets, List.length_append, h.channels]
      exact List.range'_1_concat.symm
    · rw [unserved, hunserved, List.length_append, List.length_append, h.channels, Nat.add_assoc]
      rfl
    · rw [unserved, hunserved, accepted_append, h.accepted_eq, List.map_append, List.append_assoc]
      rfl
  | block => exact h.congr rfl rfl rfl rfl
  | receive _ _ _ hclient =>
    refine h.congr rfl rfl (List.length_set ..) ?_
    rw [accepted_append, hclient.accepted_eq_nil, List.append_nil]
  | drop => exact h.congr rfl rfl (List.length_map ..) rfl
  | take hworker hqueue =>
    refine h.congr ?_ rfl rfl rfl
    rw [unserved, unserved, hworker, hqueue]
    rfl
  | @copy _ _ _ ticket t outcome hworker =>
    have hunserved : st.unserved = (ticket, t) :: st.queue := by
      rw [unserved, hworker]
      rfl
    obtain ⟨htickets, hchannels, haccepted⟩ := h
    rw [hunserved] at htickets hchannels haccepted
    rw [List.map_cons, List.length_cons, List.range'_succ, List.cons.injEq] at htickets
    constructor
    · rw [List.length_append]
      exact htickets.2
    · change st.channels.length = (st.carried ++ [(t, outcome)]).length + st.queue.length
      rw [List.length_append, hchannels, List.length_cons, List.length_singleton]
      omega
    · rw [haccepted, List.map_append, List.append_assoc]
      rfl
  | panic hworker hcheck hbounds => exact absurd (hsafe _ _ hworker hcheck) hbounds
  | announce hworker =>
    refine h.congr ?_ rfl (List.length_set ..) rfl
    rw [unserved, unserved, hworker]
    rfl
  | exit hworker =>
    refine h.congr ?_ rfl rfl rfl
    rw [unserved, unserved, hworker]
    rfl

/-- When a channel is replaced, any channel is the new one or one of the others. -/
theorem eq_or_of_getElem?_set {channels : List Channel} {i j : Nat} {c c' : Channel}
    (h : (channels.set i c)[j]? = some c') :
  (i = j ∧ c = c') ∨ (i ≠ j ∧ channels[j]? = some c')
  := by
  rw [List.getElem?_set] at h
  split at h
  · rename_i hij
    split at h
    · exact .inl ⟨hij, Option.some.inj h⟩
    · cases h
  · rename_i hij
    exact .inr ⟨hij, h⟩

/-! ### Connection -/

/-- Nobody finds that the other side is gone while there is something left to do. -/
structure Connected (st : Wired Channel α) : Prop where
  said : ∀ x ∈ st.transcript, ∀ tag, x.error? ≠ some (.disconnected tag)
  outcomes : ∀ x ∈ st.carried, ∀ tag, x.2 ≠ .error (.disconnected tag)
  unharmed : st.worker ≠ .panicked
  exited : st.worker = .exited → st.hasEngine = false ∧ st.queue = []

/-- A worker that a client can send to is there. -/
theorem Connected.not_isGone (h : st.Connected) (hengine : st.hasEngine = true) :
  ¬ st.worker.IsGone
  := by
  rintro (hexited | hpanicked)
  · cases hengine.symm.trans (h.exited hexited).1
  · exact h.unharmed hpanicked

end Wired

/-! ### Outcomes -/

namespace OneShot

variable {Channel : Type} [OneShot Channel] {c c' : Channel}
variable {outcome : Except TransferError Buffer} {announced : Option (Except TransferError Buffer)}

/-- What a channel holds over which the given outcome has been announced, or none so far. Without a
receiver, nothing is known about an announcement. -/
def Agrees (c : Channel) : Option (Except TransferError Buffer) → Prop
  | none => content c = none ∧ hasSender c = true
  | some outcome => hasReceiver c = true → content c = some outcome

theorem agrees_new :
  Agrees (new : Channel) none
  := ⟨content_new, hasSender_new⟩

theorem Agrees.deafened (h : Agrees c announced) :
  Agrees (deafened c) announced
  := by
  cases announced with
  | none => exact ⟨content_deafened c, (hasSender_deafened c).trans h.2⟩
  | some outcome =>
    intro hreceiver
    rw [hasReceiver_deafened] at hreceiver
    cases hreceiver

/-- There is room for the one outcome that is announced over a channel. -/
theorem Agrees.exists_send (h : Agrees c none) (outcome : Except TransferError Buffer) :
  ∃ c', send? c outcome = some c'
  := by
  apply Option.ne_none_iff_exists'.mp
  rw [Ne, send?_eq_none_iff, h.1]
  simp

theorem Agrees.of_send (hsend : send? c outcome = some c') :
  Agrees c' (some outcome)
  := by
  intro hreceiver
  rw [hasReceiver_of_send hsend] at hreceiver
  apply content_of_send hsend hreceiver

/-- Whoever holds the receiving end receives the outcome that has been announced, and nothing before
there is one. -/
theorem Agrees.of_receive {tag : Tag} (h : Agrees c announced) (hreceiver : hasReceiver c = true)
    (hreceive : receive? c tag = some outcome) :
  announced = some outcome
  := by
  cases announced with
  | none =>
    rw [receive?_of_hasSender tag h.1 h.2] at hreceive
    cases hreceive
  | some announced =>
    rw [receive?_of_content tag (h hreceiver)] at hreceive
    exact hreceive

end OneShot

namespace Wired

variable {Channel α : Type} [OneShot Channel] {w : Window} {st st' : Wired Channel α}
variable {data data' : Data}

/-- The outcomes that have been announced, the oldest first. -/
def announced (st : Wired Channel α) : List (Except TransferError Buffer) :=
  (st.carried.map Prod.snd).take st.nServed

/-- All outcomes have been announced, but for the one that is being announced, and the channels hold
them until they are received. -/
structure Announced (st : Wired Channel α) : Prop where
  length_eq : st.announced.length = st.nServed
  outcomes : st.carried.map Prod.snd = st.announced ++ st.worker.outcome
  ticket_eq : ∀ ticket outcome, st.worker = .announcing ticket outcome → ticket = st.nServed
  agrees : ∀ (ticket : Nat) (channel : Channel), st.channels[ticket]? = some channel →
    OneShot.Agrees channel st.announced[ticket]?

/-- The outcomes are still announced as long as the worker has the same to announce. -/
theorem Announced.congr (h : st.Announced) (hserved : st'.nServed = st.nServed)
    (hcarried : st'.carried = st.carried) (houtcome : st'.worker.outcome = st.worker.outcome)
    (hworker : ∀ ticket outcome, st'.worker = .announcing ticket outcome →
      st.worker = .announcing ticket outcome)
    (hagrees : ∀ (ticket : Nat) (channel : Channel), st'.channels[ticket]? = some channel →
      OneShot.Agrees channel st.announced[ticket]?) :
  st'.Announced
  := by
  have hannounced : st'.announced = st.announced := by
    rw [announced, announced, hserved, hcarried]
  constructor
  · rw [hannounced, hserved, h.length_eq]
  · rw [hannounced, hcarried, houtcome, h.outcomes]
  · intro ticket outcome hw
    rw [hserved]
    apply h.ticket_eq ticket outcome (hworker ticket outcome hw)
  · rw [hannounced]
    apply hagrees

theorem Announced.length_carried (h : st.Announced) :
  st.carried.length = st.nServed + st.worker.outcome.length
  := by
  have hlength := congrArg List.length h.outcomes
  rw [List.length_map, List.length_append, h.length_eq] at hlength
  exact hlength

/-- No more outcomes have been announced than there are channels. -/
theorem Announced.nServed_le (h : st.Announced) (ho : st.InOrder) :
  st.nServed ≤ st.channels.length
  := by
  rw [ho.channels, h.length_carried]
  omega

/-- The outcome of a transfer that has been carried out waits to be announced. -/
theorem Announced.copied (h : st.Announced) (ho : st.InOrder) {ticket : Nat} {t : Transfer}
    (hworker : st.worker = .serving ticket t) (outcome : Except TransferError Buffer) :
  Announced { st with
    worker := .announcing ticket outcome, carried := st.carried ++ [(t, outcome)] }
  := by
  have hticket : ticket = st.carried.length := by
    have htickets := ho.tickets
    rw [unserved, hworker] at htickets
    exact (List.cons.inj htickets).1
  have houtcomes : st.carried.map Prod.snd = st.announced := by
    rw [h.outcomes, hworker]
    apply List.append_nil
  have hlength : st.carried.length = st.nServed := by
    rw [← h.length_eq, ← houtcomes, List.length_map]
  have hcarried : (st.carried ++ [(t, outcome)]).map Prod.snd = st.announced ++ [outcome] := by
    rw [List.map_append, houtcomes]
    rfl
  have hannounced : ((st.carried ++ [(t, outcome)]).map Prod.snd).take st.nServed
      = st.announced := by
    rw [hcarried, ← h.length_eq, List.take_left]
  constructor
  · exact (congrArg List.length hannounced).trans h.length_eq
  · exact hcarried.trans (congrArg (· ++ [outcome]) hannounced.symm)
  · intro _ _ hw
    cases hw
    rw [hticket, hlength]
  · intro ticket channel hchannel
    rw [Wired.announced, hannounced]
    apply h.agrees ticket channel hchannel

/-- An outcome is announced over the channel of its transfer. -/
theorem Announced.sent (h : st.Announced) {ticket : Nat} {outcome : Except TransferError Buffer}
    {channel channel' : Channel} (hworker : st.worker = .announcing ticket outcome)
    (hchannel : st.channels[ticket]? = some channel)
    (hsend : OneShot.send? channel outcome = some channel') :
  Announced { st with
    worker := .idle, nServed := st.nServed + 1, channels := st.channels.set ticket channel' }
  := by
  have hticket := h.ticket_eq ticket outcome hworker
  have hcarried : st.carried.map Prod.snd = st.announced ++ [outcome] := by
    rw [h.outcomes, hworker]
    rfl
  have hannounced : (st.carried.map Prod.snd).take (st.nServed + 1)
      = st.announced ++ [outcome] := by
    rw [hcarried, ← h.length_eq, List.take_of_length_le]
    rw [List.length_append, List.length_singleton]
  constructor
  · rw [Wired.announced, hannounced, List.length_append, h.length_eq]
    rfl
  · exact hcarried.trans (hannounced.symm.trans (List.append_nil _).symm)
  · intro _ _ hw
    cases hw
  · intro ticket' c hc
    rw [Wired.announced, hannounced]
    rcases eq_or_of_getElem?_set hc with ⟨rfl, rfl⟩ | ⟨hne, hc⟩
    · have hnone : st.announced[ticket]? = none := by
        rw [List.getElem?_eq_none]
        rw [h.length_eq, hticket]
      have hagrees := h.agrees ticket channel hchannel
      rw [hnone] at hagrees
      rw [hticket, ← h.length_eq, List.getElem?_concat_length]
      apply OneShot.Agrees.of_send hsend
    · have hagrees := h.agrees ticket' c hc
      rw [List.getElem?_append]
      split
      · apply hagrees
      · rename_i hlt
        rw [List.getElem?_eq_none (Nat.le_of_not_lt hlt)] at hagrees
        rw [List.getElem?_eq_none]
        · apply hagrees
        · rw [List.length_singleton]
          have := h.length_eq
          omega

/-- The receiving end of a channel is used up. -/
theorem Announced.received (h : st.Announced) {ticket : Nat} {channel : Channel}
    (hchannel : st.channels[ticket]? = some channel) (client : Client α)
    (transcript : List Exchange) :
  Announced { st with
    client, transcript, waiting := none,
    channels := st.channels.set ticket (OneShot.deafened channel) }
  := by
  refine h.congr rfl rfl rfl (fun _ _ => id) ?_
  intro ticket' channel' hchannel'
  rcases eq_or_of_getElem?_set hchannel' with ⟨rfl, rfl⟩ | ⟨-, hchannel'⟩
  · apply (h.agrees ticket channel hchannel).deafened
  · apply h.agrees ticket' channel' hchannel'

/-- Every step keeps the channels and the outcomes in agreement. -/
theorem Step.announced (hstep : Step w (st, data) (st', data')) (hsafe : st.Safe w data)
    (ho : st.InOrder) (h : st.Announced) :
  st'.Announced
  := by
  cases hstep with
  | quiet => exact h.congr rfl rfl rfl (fun _ _ => id) h.agrees
  | submit =>
    refine h.congr rfl rfl rfl (fun _ _ => id) ?_
    intro ticket channel hchannel
    rw [List.getElem?_append] at hchannel
    split at hchannel
    · apply h.agrees ticket channel hchannel
    · rename_i hlt
      have hnew : channel = OneShot.new := by
        rw [List.getElem?_singleton] at hchannel
        split at hchannel
        · cases hchannel
          rfl
        · cases hchannel
      rw [hnew, List.getElem?_eq_none]
      · exact OneShot.agrees_new
      · rw [h.length_eq]
        have := h.nServed_le ho
        omega
  | block => exact h.congr rfl rfl rfl (fun _ _ => id) h.agrees
  | receive _ hchannel => exact h.received hchannel _ _
  | drop =>
    refine h.congr rfl rfl rfl (fun _ _ => id) ?_
    intro ticket channel hchannel
    rw [List.getElem?_map, Option.map_eq_some_iff] at hchannel
    obtain ⟨channel, hchannel, rfl⟩ := hchannel
    apply (h.agrees ticket channel hchannel).deafened
  | take hworker =>
    refine h.congr rfl rfl ?_ ?_ h.agrees
    · rw [hworker]
      rfl
    · intro _ _ hw
      cases hw
  | copy hworker => exact h.copied ho hworker _
  | panic hworker hcheck hbounds => exact absurd (hsafe _ _ hworker hcheck) hbounds
  | announce hworker hchannel hsend => exact h.sent hworker hchannel hsend
  | exit hworker =>
    refine h.congr rfl rfl ?_ ?_ h.agrees
    · rw [hworker]
      rfl
    · intro _ _ hw
      cases hw

/-! ### Receiving ends -/

/-- The client holds the receiving end of a channel under a tag. -/
def Holds (st : Wired Channel α) (tag : Tag) (ticket : Nat) : Prop :=
  st.hasEngine = true ∧ (st.slots.get? tag = some ticket ∨ st.waiting = some (tag, ticket))

/-- The client holds the receiving ends of different channels under different tags, blocks only when
it waits, and keeps its engine until it has ended. -/
structure Held (st : Wired Channel α) : Prop where
  hasReceiver : ∀ tag ticket, st.Holds tag ticket →
    ∃ channel : Channel, st.channels[ticket]? = some channel ∧ OneShot.hasReceiver channel = true
  apart : ∀ tag tag' ticket, st.Holds tag ticket → st.Holds tag' ticket → tag = tag'
  waits : ∀ tag ticket, st.waiting = some (tag, ticket) →
    st.hasEngine = true ∧ st.client.WaitsFor tag ∧ st.slots.get? tag = none
  ended : st.hasEngine = false → ∃ result, st.client = .running (.done result)

namespace Held

/-- A client that has not ended has its engine. -/
theorem hasEngine_of_ne (h : st.Held) (hclient : ∀ result, st.client ≠ .running (.done result)) :
  st.hasEngine = true
  := by
  by_contra hengine
  obtain ⟨result, hdone⟩ := h.ended (Bool.eq_false_of_not_eq_true hengine)
  apply hclient result hdone

theorem hasEngine_of_waitsFor (h : st.Held) {tag : Tag} (hclient : st.client.WaitsFor tag) :
  st.hasEngine = true
  := by
  apply h.hasEngine_of_ne
  intro result hdone
  rw [hdone] at hclient
  cases hclient

theorem hasEngine_of_call (h : st.Held) {request : Call} {next : request.Reply → Session α}
    (hclient : st.client = .running (.call request next)) :
  st.hasEngine = true
  := by
  apply h.hasEngine_of_ne
  intro result hdone
  cases hclient.symm.trans hdone

theorem hasEngine_of_quiet (h : st.Held) {worker : CopyWorker} {c' : Client α} {xs : List Exchange}
    (hquiet : st.client.Quiet st.slots worker c' xs) :
  st.hasEngine = true
  := by
  apply h.hasEngine_of_ne
  intro result hdone
  rw [hdone] at hquiet
  cases hquiet with
  | nothing _ hresumes => cases hresumes

theorem not_waiting (h : st.Held) {result : α} (hclient : st.client = .running (.done result)) :
  st.waiting = none
  := by
  rw [Option.eq_none_iff_forall_ne_some]
  rintro ⟨tag, ticket⟩ hwaiting
  obtain ⟨-, hwaits, -⟩ := h.waits tag ticket hwaiting
  rw [hclient] at hwaits
  cases hwaits

/-- Steps of the worker take no receiving end from the client. -/
theorem congr (h : st.Held) (hclient : st'.client = st.client) (hwaiting : st'.waiting = st.waiting)
    (hengine : st'.hasEngine = st.hasEngine) (hslots : st'.slots = st.slots)
    (hreceiver : ∀ (ticket : Nat) (channel : Channel), st.channels[ticket]? = some channel →
      ∃ channel' : Channel, st'.channels[ticket]? = some channel' ∧
        OneShot.hasReceiver channel' = OneShot.hasReceiver channel) :
  st'.Held
  := by
  have hholds : ∀ tag ticket, st'.Holds tag ticket → st.Holds tag ticket := by
    intro tag ticket
    rw [Holds, Holds, hengine, hslots, hwaiting]
    exact id
  constructor
  · intro tag ticket hst
    obtain ⟨channel, hchannel, heq⟩ := h.hasReceiver tag ticket (hholds tag ticket hst)
    obtain ⟨channel', hchannel', heq'⟩ := hreceiver ticket channel hchannel
    exact ⟨channel', hchannel', heq'.trans heq⟩
  · intro tag tag' ticket hst hst'
    apply h.apart tag tag' ticket (hholds tag ticket hst) (hholds tag' ticket hst')
  · rw [hclient, hwaiting, hengine, hslots]
    apply h.waits
  · rw [hclient, hengine]
    apply h.ended

/-- The receiving end of a new channel is put into a free slot. -/
theorem submitted (h : st.Held) (hengine : st.hasEngine = true) (hwaiting : st.waiting = none)
    (tag : Tag) (client : Client α) (transcript : List Exchange) (queue : List (Nat × Transfer)) :
  Held { st with
    client, transcript, queue,
    slots := st.slots.set tag (some st.channels.length),
    channels := st.channels ++ [OneShot.new] }
  := by
  have hholds : ∀ tag' ticket,
      ((st.slots.set tag (some st.channels.length)).get? tag' = some ticket ∨
        st.waiting = some (tag', ticket)) →
      (tag' = tag ∧ ticket = st.channels.length) ∨ st.Holds tag' ticket := by
    intro tag' ticket hslot
    rw [hwaiting, TagSlots.get?_set] at hslot
    simp only [reduceCtorEq, or_false] at hslot
    split at hslot
    · rename_i heq
      exact .inl ⟨heq.symm, (Option.some.inj hslot).symm⟩
    · exact .inr ⟨hengine, .inl hslot⟩
  have hlt : ∀ tag' ticket, st.Holds tag' ticket → ticket < st.channels.length := by
    intro tag' ticket hst
    obtain ⟨channel, hchannel, -⟩ := h.hasReceiver tag' ticket hst
    exact (List.getElem?_eq_some_iff.mp hchannel).1
  constructor
  · rintro tag' ticket ⟨-, hslot⟩
    rcases hholds tag' ticket hslot with ⟨-, rfl⟩ | hst
    · exact ⟨OneShot.new, List.getElem?_concat_length, OneShot.hasReceiver_new⟩
    · obtain ⟨channel, hchannel, hreceiver⟩ := h.hasReceiver tag' ticket hst
      use channel
      rw [List.getElem?_append_left (hlt tag' ticket hst)]
      exact ⟨hchannel, hreceiver⟩
  · rintro tag₁ tag₂ ticket ⟨-, hslot₁⟩ ⟨-, hslot₂⟩
    rcases hholds tag₁ ticket hslot₁ with ⟨rfl, rfl⟩ | hst₁
    · rcases hholds tag₂ _ hslot₂ with ⟨rfl, -⟩ | hst₂
      · rfl
      · exact absurd (hlt tag₂ _ hst₂) (Nat.lt_irrefl _)
    · rcases hholds tag₂ ticket hslot₂ with ⟨-, rfl⟩ | hst₂
      · exact absurd (hlt tag₁ _ hst₁) (Nat.lt_irrefl _)
      · exact h.apart tag₁ tag₂ ticket hst₁ hst₂
  · intro tag' ticket hw
    rw [hwaiting] at hw
    cases hw
  · intro hnone
    cases hengine.symm.trans hnone

/-- The receiving end is taken out of a slot. -/
theorem blocked (h : st.Held) (hengine : st.hasEngine = true) {tag : Tag} {ticket : Nat}
    (hclient : st.client.WaitsFor tag) (hslot : st.slots.get? tag = some ticket) :
  Held { st with waiting := some (tag, ticket), slots := st.slots.set tag none }
  := by
  have hholds : ∀ tag' ticket',
      ((st.slots.set tag none).get? tag' = some ticket' ∨
        some (tag, ticket) = some (tag', ticket')) →
      st.Holds tag' ticket' := by
    rintro tag' ticket' (hslot' | hw)
    · rw [TagSlots.get?_set] at hslot'
      split at hslot'
      · cases hslot'
      · exact ⟨hengine, .inl hslot'⟩
    · cases hw
      exact ⟨hengine, .inl hslot⟩
  constructor
  · rintro tag' ticket' ⟨-, hslot'⟩
    apply h.hasReceiver tag' ticket' (hholds tag' ticket' hslot')
  · rintro tag₁ tag₂ ticket' ⟨-, hslot₁⟩ ⟨-, hslot₂⟩
    apply h.apart tag₁ tag₂ ticket' (hholds tag₁ ticket' hslot₁) (hholds tag₂ ticket' hslot₂)
  · intro tag' ticket' hw
    cases hw
    use hengine, hclient
    rw [TagSlots.get?_set, if_pos rfl]
  · intro hnone
    cases hengine.symm.trans hnone

/-- The receiving end is used up. -/
theorem received (h : st.Held) {tag : Tag} {ticket : Nat}
    (hwaiting : st.waiting = some (tag, ticket)) (channel : Channel) (client : Client α)
    (transcript : List Exchange) :
  Held { st with
    client, transcript, waiting := none,
    channels := st.channels.set ticket (OneShot.deafened channel) }
  := by
  obtain ⟨hengine, -, hslot⟩ := h.waits tag ticket hwaiting
  have hholds : ∀ tag' ticket',
      (st.slots.get? tag' = some ticket' ∨ none = some (tag', ticket')) →
      ticket ≠ ticket' ∧ st.Holds tag' ticket' := by
    rintro tag' ticket' (hslot' | hw)
    · have hst : st.Holds tag' ticket' := ⟨hengine, .inl hslot'⟩
      refine ⟨?_, hst⟩
      rintro rfl
      rw [h.apart tag' tag ticket hst ⟨hengine, .inr hwaiting⟩, hslot] at hslot'
      cases hslot'
    · cases hw
  constructor
  · rintro tag' ticket' ⟨-, hslot'⟩
    obtain ⟨hne, hst⟩ := hholds tag' ticket' hslot'
    obtain ⟨c, hc, hreceiver⟩ := h.hasReceiver tag' ticket' hst
    use c
    rw [List.getElem?_set_ne hne]
    exact ⟨hc, hreceiver⟩
  · rintro tag₁ tag₂ ticket' ⟨-, hslot₁⟩ ⟨-, hslot₂⟩
    apply h.apart tag₁ tag₂ ticket' (hholds tag₁ ticket' hslot₁).2 (hholds tag₂ ticket' hslot₂).2
  · intro tag' ticket' hw
    cases hw
  · intro hnone
    cases hengine.symm.trans hnone

end Held

/-- Every step keeps the receiving ends apart and held. -/
theorem Step.held (hstep : Step w (st, data) (st', data')) (hsafe : st.Safe w data) (h : st.Held) :
  st'.Held
  := by
  cases hstep with
  | quiet hwaiting hquiet =>
    have hengine := h.hasEngine_of_quiet hquiet
    constructor
    · exact h.hasReceiver
    · exact h.apart
    · intro tag ticket hw
      rw [hwaiting] at hw
      cases hw
    · intro hnone
      cases hengine.symm.trans hnone
  | submit hwaiting hclient =>
    have hengine := h.hasEngine_of_call hclient
    exact h.submitted hengine hwaiting _ _ _ _
  | block _ hclient hslot =>
    have hengine := h.hasEngine_of_waitsFor hclient
    exact h.blocked hengine hclient hslot
  | receive hwaiting =>
    exact h.received hwaiting _ _ _
  | @drop _ _ result hclient =>
    constructor
    · rintro tag ticket ⟨hengine, -⟩
      cases hengine
    · rintro tag tag' ticket ⟨hengine, -⟩
      cases hengine
    · intro tag ticket hw
      rw [h.not_waiting hclient] at hw
      cases hw
    · intro _
      exact ⟨result, hclient⟩
  | take => exact h.congr rfl rfl rfl rfl fun _ channel hchannel => ⟨channel, hchannel, rfl⟩
  | copy => exact h.congr rfl rfl rfl rfl fun _ channel hchannel => ⟨channel, hchannel, rfl⟩
  | panic hworker hcheck hbounds => exact absurd (hsafe _ _ hworker hcheck) hbounds
  | @announce _ _ ticket outcome channel channel' hworker hchannel hsend =>
    refine h.congr rfl rfl rfl rfl ?_
    intro ticket' c hc
    rw [List.getElem?_set]
    split
    · rename_i heq
      rw [← heq, hchannel] at hc
      cases hc
      obtain ⟨hlt, -⟩ := List.getElem?_eq_some_iff.mp hchannel
      rw [if_pos hlt]
      exact ⟨channel', rfl, OneShot.hasReceiver_of_send hsend⟩
    · exact ⟨c, hc, rfl⟩
  | exit => exact h.congr rfl rfl rfl rfl fun _ channel hchannel => ⟨channel, hchannel, rfl⟩

/-! ### Soundness -/

/-- What a client receives is an outcome that has been announced. -/
theorem outcome_mem_announced (hannounced : st.Announced) (hheld : st.Held) {tag : Tag}
    {ticket : Nat} {channel : Channel} {outcome : Except TransferError Buffer}
    (hwaiting : st.waiting = some (tag, ticket)) (hchannel : st.channels[ticket]? = some channel)
    (hreceive : OneShot.receive? channel tag = some outcome) :
  st.announced[ticket]? = some outcome
  := by
  obtain ⟨hengine, -, -⟩ := hheld.waits tag ticket hwaiting
  obtain ⟨channel', hchannel', hreceiver⟩ := hheld.hasReceiver tag ticket ⟨hengine, .inr hwaiting⟩
  rw [hchannel] at hchannel'
  cases hchannel'
  apply (hannounced.agrees ticket channel hchannel).of_receive hreceiver hreceive

/-- Every step keeps the client and the worker connected. -/
theorem Step.connected (hstep : Step w (st, data) (st', data')) (hsafe : st.Safe w data)
    (hannounced : st.Announced) (hheld : st.Held) (h : st.Connected) :
  st'.Connected
  := by
  cases hstep with
  | quiet hwaiting hquiet =>
    refine ⟨?_, h.outcomes, h.unharmed, h.exited⟩
    intro x hx
    rcases List.mem_append.mp hx with hx | hx
    · apply h.said x hx
    · apply hquiet.error_ne (h.not_isGone (hheld.hasEngine_of_quiet hquiet)) hx
  | submit hwaiting hclient =>
    have hgone := h.not_isGone (hheld.hasEngine_of_call hclient)
    refine ⟨?_, h.outcomes, h.unharmed, fun hexited => absurd (.inl hexited) hgone⟩
    intro x hx tag
    rcases List.mem_append.mp hx with hx | hx
    · apply h.said x hx
    · obtain rfl := List.mem_singleton.mp hx
      simp [Exchange.error?]
  | block => exact ⟨h.said, h.outcomes, h.unharmed, h.exited⟩
  | @receive _ _ tag ticket channel outcome _ xs hwaiting hchannel hreceive hclient =>
    refine ⟨?_, h.outcomes, h.unharmed, h.exited⟩
    intro x hx tag'
    rcases List.mem_append.mp hx with hx | hx
    · apply h.said x hx
    · intro herror
      have hmem : outcome ∈ st.announced := List.mem_of_getElem?
        (outcome_mem_announced hannounced hheld hwaiting hchannel hreceive)
      obtain ⟨y, hy, rfl⟩ := List.mem_map.mp (List.mem_of_mem_take hmem)
      have hreply := hclient.error_eq hx herror
      cases houtcome : y.2 with
      | ok buffer =>
        rw [houtcome] at hreply
        cases hreply
      | error cause =>
        rw [houtcome] at hreply
        cases hreply
        exact h.outcomes y hy tag' houtcome
  | drop => exact ⟨h.said, h.outcomes, h.unharmed, fun hexited => ⟨rfl, (h.exited hexited).2⟩⟩
  | take => exact ⟨h.said, h.outcomes, by simp, by simp⟩
  | @copy _ _ _ ticket t outcome hworker hbounds hperform =>
    refine ⟨h.said, ?_, by simp, by simp⟩
    intro x hx tag
    rcases List.mem_append.mp hx with hx | hx
    · apply h.outcomes x hx
    · obtain rfl := List.mem_singleton.mp hx
      have hne := Transfer.perform_ne_disconnected w data t tag
      rw [hperform] at hne
      apply hne
  | panic hworker hcheck hbounds => exact absurd (hsafe _ _ hworker hcheck) hbounds
  | announce => exact ⟨h.said, h.outcomes, by simp, by simp⟩
  | exit hworker hqueue hengine => exact ⟨h.said, h.outcomes, by simp, fun _ => ⟨hengine, hqueue⟩⟩

/-- The data once the given transfers have been carried out, one after the other. -/
def carryOut (w : Window) (data : Data) (ts : List Transfer) : Data :=
  ts.foldl (fun data t => (t.perform w data).2) data

theorem carryOut_append (w : Window) (data : Data) (ts us : List Transfer) :
  carryOut w data (ts ++ us) = carryOut w (carryOut w data ts) us
  := List.foldl_append

/-- What holds in every state that a client and its worker reach from the data `d₀` on. -/
structure Sound (w : Window) (d₀ : Data) (st : Wired Channel α) (data : Data) : Prop where
  inOrder : st.InOrder
  announced : st.Announced
  held : st.Held
  connected : st.Connected
  fits : w.Fits data.size
  data_eq : data = carryOut w d₀ (st.carried.map Prod.fst)

theorem sound_start (hfits : w.Fits data.size) (session : Session α) :
  Sound w data (start session : Wired Channel α) data
  where
  inOrder := ⟨rfl, rfl, rfl⟩
  announced := by
    constructor
    · rfl
    · rfl
    · intro _ _ h
      cases h
    · intro _ _ h
      cases h
  held := by
    constructor
    · rintro tag ticket ⟨-, h | h⟩
      · rw [start, TagSlots.get?_empty] at h
        cases h
      · cases h
    · rintro tag tag' ticket ⟨-, h | h⟩
      · rw [start, TagSlots.get?_empty] at h
        cases h
      · cases h
    · intro _ _ h
      cases h
    · intro h
      cases h
  connected := by
    constructor
    · simp [start]
    · simp [start]
    · simp [start]
    · simp [start]
  fits := hfits
  data_eq := rfl

theorem Sound.safe {d₀ : Data} (h : Sound w d₀ st data) :
  st.Safe w data
  := fun _ _ _ hcheck => Transfer.inBounds_of_check h.fits hcheck

/-- Every step is sound. -/
theorem Step.sound {d₀ : Data} (hstep : Step w (st, data) (st', data'))
    (h : Sound w d₀ st data) :
  Sound w d₀ st' data'
  := by
  have hdata : w.Fits data'.size ∧ data' = carryOut w d₀ (st'.carried.map Prod.fst) := by
    cases hstep with
    | @copy _ _ _ ticket t outcome hworker hbounds hperform =>
      have hsize := Transfer.size_perform w data t
      rw [hperform] at hsize
      constructor
      · rw [hsize]
        apply h.fits
      · rw [List.map_append, carryOut_append, ← h.data_eq]
        exact (congrArg Prod.snd hperform).symm
    | panic hworker hcheck hbounds => exact absurd (h.safe _ _ hworker hcheck) hbounds
    | _ => exact ⟨h.fits, h.data_eq⟩
  exact ⟨hstep.inOrder h.safe h.inOrder, hstep.announced h.safe h.inOrder h.announced,
    hstep.held h.safe h.held, hstep.connected h.safe h.announced h.held h.connected, hdata.1,
    hdata.2⟩

end Wired

end ReplicaSum
