import ReplicaSum.Proofs.Worker

/-!
# Channels

A client and its copy worker down to the channels between them. The client sends its requests over
one channel, which has room for any number of them. Each request brings along the sending end of
a channel of its own, over which the worker says how the transfer went; the client keeps the
receiving end in the slot of the tag until it waits for the transfer. A channel notices when one of
its ends is let go of, which is how a client could find itself cut off from its worker.
-/

namespace ReplicaSum

/-! ### The system -/

/-- Channels with room for the outcome of one transfer, as they are described by those who provide
them: what they do for the ends of a channel, and what can be said about a channel between any two
of these actions. -/
class OneShot (Channel : Type) where
  /-- A channel over which nothing has been sent. -/
  new : Channel
  /-- Send an outcome and let go of the sending end. The sender has to wait as long as this gives
  nothing. -/
  send? : Channel → Except TransferError Buffer → Option Channel
  /-- What a client gets that receives on behalf of a tag: an outcome, or an error if nobody is left
  who could send one. It has to wait as long as this gives nothing. -/
  receive? : Channel → Tag → Option (Except TransferError Buffer)
  /-- The channel once its receiving end has been let go of. -/
  deafened : Channel → Channel
  /-- The channel once its sending end has been let go of. -/
  muted : Channel → Channel
  /-- What has been sent and not been received. -/
  content : Channel → Option (Except TransferError Buffer)
  /-- Whether the sending end is held. -/
  hasSender : Channel → Bool
  /-- Whether the receiving end is held. -/
  hasReceiver : Channel → Bool
  content_new : content new = none
  hasSender_new : hasSender new = true
  hasReceiver_new : hasReceiver new = true
  /-- A sender waits only while there is no room and somebody could still make room. -/
  send?_eq_none_iff (c : Channel) (outcome : Except TransferError Buffer) :
    send? c outcome = none ↔ (content c).isSome = true ∧ hasReceiver c = true
  /-- What is sent is there to be received, if anybody is left to receive it. -/
  content_of_send {c c' : Channel} {outcome : Except TransferError Buffer} :
    send? c outcome = some c' → hasReceiver c = true → content c' = some outcome
  hasSender_of_send {c c' : Channel} {outcome : Except TransferError Buffer} :
    send? c outcome = some c' → hasSender c' = false
  hasReceiver_of_send {c c' : Channel} {outcome : Except TransferError Buffer} :
    send? c outcome = some c' → hasReceiver c' = hasReceiver c
  receive?_of_content {c : Channel} {outcome : Except TransferError Buffer} (tag : Tag) :
    content c = some outcome → receive? c tag = some outcome
  receive?_of_hasSender {c : Channel} (tag : Tag) :
    content c = none → hasSender c = true → receive? c tag = none
  /-- A receiver is told that nobody is left who could send anything. -/
  receive?_of_not_hasSender {c : Channel} (tag : Tag) :
    content c = none → hasSender c = false → receive? c tag = some (.error (.disconnected tag))
  /-- What nobody can receive any more is lost. -/
  content_deafened (c : Channel) : content (deafened c) = none
  hasSender_deafened (c : Channel) : hasSender (deafened c) = hasSender c
  hasReceiver_deafened (c : Channel) : hasReceiver (deafened c) = false
  content_muted (c : Channel) : content (muted c) = content c
  hasSender_muted (c : Channel) : hasSender (muted c) = false
  hasReceiver_muted (c : Channel) : hasReceiver (muted c) = hasReceiver c

/-- A channel that is nothing but its content and its ends. -/
structure PlainChannel where
  content : Option (Except TransferError Buffer)
  hasSender : Bool
  hasReceiver : Bool

namespace PlainChannel

/-- Send an outcome. Without a receiver, it gets lost. -/
def send? (c : PlainChannel) (outcome : Except TransferError Buffer) : Option PlainChannel :=
  if c.hasReceiver then
    match c.content with
    | none => some ⟨some outcome, false, true⟩
    | some _ => none
  else some ⟨c.content, false, false⟩

/-- Receive an outcome, or an error if there is no sender. -/
def receive? (c : PlainChannel) (tag : Tag) : Option (Except TransferError Buffer) :=
  match c.content with
  | some outcome => some outcome
  | none => if c.hasSender then none else some (.error (.disconnected tag))

instance : OneShot PlainChannel where
  new := ⟨none, true, true⟩
  send? := send?
  receive? := receive?
  deafened c := ⟨none, c.hasSender, false⟩
  muted c := ⟨c.content, false, c.hasReceiver⟩
  content := content
  hasSender := hasSender
  hasReceiver := hasReceiver
  content_new := rfl
  hasSender_new := rfl
  hasReceiver_new := rfl
  send?_eq_none_iff := by
    rintro ⟨_ | _, _, _ | _⟩ outcome <;> simp [send?]
  content_of_send := by
    rintro ⟨_ | _, _, _ | _⟩ c' outcome ⟨⟩ ⟨⟩
    rfl
  hasSender_of_send := by
    rintro ⟨_ | _, _, _ | _⟩ c' outcome ⟨⟩ <;> rfl
  hasReceiver_of_send := by
    rintro ⟨_ | _, _, _ | _⟩ c' outcome ⟨⟩ <;> rfl
  receive?_of_content := by
    rintro ⟨_, _, _⟩ outcome tag ⟨⟩
    rfl
  receive?_of_hasSender := by
    rintro ⟨_, _, _⟩ tag ⟨⟩ ⟨⟩
    rfl
  receive?_of_not_hasSender := by
    rintro ⟨_, _, _⟩ tag ⟨⟩ ⟨⟩
    rfl
  content_deafened _ := rfl
  hasSender_deafened _ := rfl
  hasReceiver_deafened _ := rfl
  content_muted _ := rfl
  hasSender_muted _ := rfl
  hasReceiver_muted _ := rfl

end PlainChannel

/-- What a copy worker is doing. A request goes by the number of its channel, its ticket. -/
inductive CopyWorker where
  /-- Waiting for a request. -/
  | idle
  /-- Carrying out a transfer. -/
  | serving (ticket : Nat) (transfer : Transfer)
  /-- Saying how a transfer went. -/
  | announcing (ticket : Nat) (outcome : Except TransferError Buffer)
  /-- Nothing any more, since there are no requests and there will be none. -/
  | exited
  /-- Nothing any more, since it reached for records outside of the slice or of a buffer. -/
  | panicked

namespace CopyWorker

/-- The request that a worker has taken and not carried out yet. -/
def request : CopyWorker → List (Nat × Transfer)
  | .serving ticket t => [(ticket, t)]
  | _ => []

/-- The outcome that a worker has yet to announce. -/
def outcome : CopyWorker → List (Except TransferError Buffer)
  | .announcing _ outcome => [outcome]
  | _ => []

/-- A worker that is gone receives no requests. -/
def IsGone (worker : CopyWorker) : Prop := worker = .exited ∨ worker = .panicked

end CopyWorker

/-- All records that a transfer moves lie in a slice of `size` records and in its buffer. -/
def Transfer.InBounds (w : Window) (size : Nat) : Transfer → Prop
  | .get array records buffer =>
    w.address array records.stop ≤ size ∧ records.length ≤ buffer.records.size
  | .put records buffer => w.address 0 records.stop ≤ size ∧ records.length ≤ buffer.records.size

namespace Client

variable {α : Type}

/-- A client waits under a tag. -/
inductive WaitsFor : Client α → Tag → Prop where
  | wait {tag : Tag} {next : Except TransferError (Option Buffer) → Session α} :
      WaitsFor (.running (.call (.wait tag) next)) tag
  | finish {tag : Tag} {tags : List Tag} {next : Except TransferError Unit → Session α} :
      WaitsFor (.finishing (tag :: tags) next) tag

/-- `Resumes c tag reply c' xs`: when its wait under a tag ends with a reply, a client goes on as
`c'`, and the calls `xs` have been answered. -/
inductive Resumes :
    Client α → Tag → Except TransferError (Option Buffer) → Client α → List Exchange → Prop where
  | wait {tag : Tag} {next : Except TransferError (Option Buffer) → Session α}
      {reply : Except TransferError (Option Buffer)} :
      Resumes (.running (.call (.wait tag) next)) tag reply (.running (next reply))
        [⟨.wait tag, reply⟩]
  | collected {tag : Tag} {tags : List Tag} {next : Except TransferError Unit → Session α}
      {buffer : Option Buffer} :
      Resumes (.finishing (tag :: tags) next) tag (.ok buffer) (.finishing tags next) []
  | failed {tag : Tag} {tags : List Tag} {next : Except TransferError Unit → Session α}
      {cause : TransferError} :
      Resumes (.finishing (tag :: tags) next) tag (.error cause) (.running (next (.error cause)))
        [⟨.finish, .error cause⟩]

/-- `Quiet slots worker c c' xs`: a step of a client in which it neither sends nor receives, and in
which the calls `xs` are answered. -/
inductive Quiet (slots : TagSlots Nat) (worker : CopyWorker) :
    Client α → Client α → List Exchange → Prop where
  /-- A transfer is refused because its tag is busy. -/
  | busy {tag : Tag} {t : Transfer} {next : Except TransferError Unit → Session α}
      (hbusy : slots.isPending tag = true) :
      Quiet slots worker (.running (.call (.submit tag t) next))
        (.running (next (.error (.tagBusy tag)))) [⟨.submit tag t, .error (.tagBusy tag)⟩]
  /-- A transfer is refused because nobody receives requests. -/
  | cutOff {tag : Tag} {t : Transfer} {next : Except TransferError Unit → Session α}
      (hfree : slots.get? tag = none) (hgone : worker.IsGone) :
      Quiet slots worker (.running (.call (.submit tag t) next))
        (.running (next (.error (.disconnected tag))))
        [⟨.submit tag t, .error (.disconnected tag)⟩]
  /-- Nothing is in flight under the tag that is waited for. -/
  | nothing {c c' : Client α} {tag : Tag} {xs : List Exchange} (hfree : slots.get? tag = none)
      (h : Resumes c tag (.ok none) c' xs) : Quiet slots worker c c' xs
  /-- The client begins to wait for all transfers in flight. -/
  | finish {next : Except TransferError Unit → Session α} :
      Quiet slots worker (.running (.call .finish next)) (.finishing slots.pending next) []
  /-- All of these transfers went well. -/
  | finished {next : Except TransferError Unit → Session α} :
      Quiet slots worker (.finishing [] next) (.running (next (.ok ()))) [⟨.finish, .ok ()⟩]

end Client

/-- A client and a worker, the requests between them and the channels of all requests so far. -/
structure Wired (Channel α : Type) where
  client : Client α
  /-- The tag that the client is blocked on, and the ticket that it has taken out of its slot. -/
  waiting : Option (Tag × Nat)
  /-- Whether the client still has its engine, with the sending end for requests and the receiving
  ends in the slots. -/
  hasEngine : Bool
  slots : TagSlots Nat
  transcript : List Exchange
  queue : List (Nat × Transfer)
  channels : List Channel
  worker : CopyWorker
  /-- The number of requests that the worker has counted. -/
  nServed : Nat
  /-- The transfers that have been carried out, with their outcomes, the oldest first. -/
  carried : List (Transfer × Except TransferError Buffer)

namespace Wired

variable {Channel α : Type}

/-- A session that is about to begin, with a worker that waits for its requests. -/
def start (session : Session α) : Wired Channel α :=
  ⟨.running session, none, true, .empty, [], [], [], .idle, 0, []⟩

variable [OneShot Channel]

/-- The steps of the client and of the worker, which serves the window `w`. -/
inductive Step (w : Window) : Wired Channel α × Data → Wired Channel α × Data → Prop where
  /-- The client goes on without its channels. -/
  | quiet {st : Wired Channel α} {data : Data} {c' : Client α} {xs : List Exchange}
      (hwaiting : st.waiting = none) (h : st.client.Quiet st.slots st.worker c' xs) :
      Step w (st, data) ({ st with client := c', transcript := st.transcript ++ xs }, data)
  /-- A request is sent, and the receiving end of its channel kept. -/
  | submit {st : Wired Channel α} {data : Data} {tag : Tag} {t : Transfer}
      {next : Except TransferError Unit → Session α} (hwaiting : st.waiting = none)
      (hclient : st.client = .running (.call (.submit tag t) next))
      (hfree : st.slots.get? tag = none) (hworker : ¬ st.worker.IsGone) :
      Step w (st, data)
        ({ st with
            client := .running (next (.ok ())),
            slots := st.slots.set tag (some st.channels.length),
            transcript := st.transcript ++ [⟨.submit tag t, .ok ()⟩],
            queue := st.queue ++ [(st.channels.length, t)],
            channels := st.channels ++ [OneShot.new] }, data)
  /-- The client takes the receiving end out of a slot and blocks. -/
  | block {st : Wired Channel α} {data : Data} {tag : Tag} {ticket : Nat}
      (hwaiting : st.waiting = none) (hclient : st.client.WaitsFor tag)
      (hslot : st.slots.get? tag = some ticket) :
      Step w (st, data)
        ({ st with waiting := some (tag, ticket), slots := st.slots.set tag none }, data)
  /-- The client receives what it was blocked on. -/
  | receive {st : Wired Channel α} {data : Data} {tag : Tag} {ticket : Nat} {channel : Channel}
      {outcome : Except TransferError Buffer} {c' : Client α} {xs : List Exchange}
      (hwaiting : st.waiting = some (tag, ticket)) (hchannel : st.channels[ticket]? = some channel)
      (hreceive : OneShot.receive? channel tag = some outcome)
      (hclient : st.client.Resumes tag (outcome.map some) c' xs) :
      Step w (st, data)
        ({ st with
            client := c',
            waiting := none,
            transcript := st.transcript ++ xs,
            channels := st.channels.set ticket (OneShot.deafened channel) }, data)
  /-- The client has ended and lets go of its engine. -/
  | drop {st : Wired Channel α} {data : Data} {result : α}
      (hclient : st.client = .running (.done result)) (hengine : st.hasEngine = true) :
      Step w (st, data)
        ({ st with hasEngine := false, channels := st.channels.map OneShot.deafened }, data)
  /-- The worker takes the oldest request. -/
  | take {st : Wired Channel α} {data : Data} {ticket : Nat} {t : Transfer}
      {queue : List (Nat × Transfer)} (hworker : st.worker = .idle)
      (hqueue : st.queue = (ticket, t) :: queue) :
      Step w (st, data) ({ st with worker := .serving ticket t, queue := queue }, data)
  /-- The worker carries out a transfer, or finds that it can't be. -/
  | copy {st : Wired Channel α} {data data' : Data} {ticket : Nat} {t : Transfer}
      {outcome : Except TransferError Buffer} (hworker : st.worker = .serving ticket t)
      (hbounds : t.check w = .ok () → t.InBounds w data.size)
      (hperform : t.perform w data = (outcome, data')) :
      Step w (st, data)
        ({ st with
            worker := .announcing ticket outcome, carried := st.carried ++ [(t, outcome)] }, data')
  /-- The worker breaks down, and lets go of everything that it holds. -/
  | panic {st : Wired Channel α} {data : Data} {ticket : Nat} {t : Transfer}
      (hworker : st.worker = .serving ticket t) (hcheck : t.check w = .ok ())
      (hbounds : ¬ t.InBounds w data.size) :
      Step w (st, data)
        ({ st with
            worker := .panicked, queue := [], channels := st.channels.map OneShot.muted }, data)
  /-- The worker says how a transfer went. -/
  | announce {st : Wired Channel α} {data : Data} {ticket : Nat}
      {outcome : Except TransferError Buffer} {channel channel' : Channel}
      (hworker : st.worker = .announcing ticket outcome)
      (hchannel : st.channels[ticket]? = some channel)
      (hsend : OneShot.send? channel outcome = some channel') :
      Step w (st, data)
        ({ st with
            worker := .idle,
            nServed := st.nServed + 1,
            channels := st.channels.set ticket channel' }, data)
  /-- The worker finds that there are no requests and that there will be none. -/
  | exit {st : Wired Channel α} {data : Data} (hworker : st.worker = .idle) (hqueue : st.queue = [])
      (hengine : st.hasEngine = false) :
      Step w (st, data) ({ st with worker := .exited }, data)

end Wired

/-! ### What a worker meets -/

namespace Transfer

/-- A transfer that passes its check stays in bounds. -/
theorem inBounds_of_check {w : Window} {t : Transfer} {size : Nat} (hfits : w.Fits size)
    (h : t.check w = .ok ()) :
  t.InBounds w size
  := by
  cases t with
  | get array records buffer =>
    rw [check] at h
    split at h
    · cases h
    · rename_i harray
      obtain ⟨hlen, -, hstop⟩ := Window.check_eq_ok_iff.mp h
      exact ⟨hfits.address_le (Nat.lt_of_not_le harray) hstop, hlen.2⟩
  | put records buffer =>
    obtain ⟨hlen, -, hstop⟩ := Window.check_eq_ok_iff.mp h
    have hinside := hfits.inside
    rw [InBounds, Window.address_zero]
    refine ⟨?_, hlen.2⟩
    omega

/-- A transfer that can't be carried out fails for a reason of its own. -/
theorem perform_ne_disconnected (w : Window) (data : Data) (t : Transfer) (tag : Tag) :
  (t.perform w data).1 ≠ .error (.disconnected tag)
  := by
  intro hperform
  cases hcheck : t.check w with
  | ok =>
    rw [perform_of_check_ok hcheck] at hperform
    cases hperform
  | error cause =>
    rw [perform_of_check_error hcheck] at hperform
    cases hperform
    cases tag?_of_check_error hcheck

end Transfer

/-! ### What has been said -/

namespace Exchange

/-- The transfer that has been accepted by a call. -/
def accepted? : Exchange → Option Transfer
  | ⟨.submit _ t, .ok ()⟩ => some t
  | _ => none

/-- The error that a call has been answered with. -/
def error? : Exchange → Option TransferError
  | ⟨.submit _ _, .error cause⟩ => some cause
  | ⟨.wait _, .error cause⟩ => some cause
  | ⟨.finish, .error cause⟩ => some cause
  | _ => none

end Exchange

/-- The transfers that have been accepted, in the order in which they were submitted. -/
def accepted (transcript : List Exchange) : List Transfer := transcript.filterMap Exchange.accepted?

theorem accepted_append (xs ys : List Exchange) :
  accepted (xs ++ ys) = accepted xs ++ accepted ys
  := List.filterMap_append

namespace Client

variable {α : Type} {c c' : Client α} {tag : Tag} {xs : List Exchange}
variable {reply : Except TransferError (Option Buffer)} {slots : TagSlots Nat} {worker : CopyWorker}

/-- A client that waits goes on, whatever the reply is. -/
theorem WaitsFor.exists_resumes (h : c.WaitsFor tag)
    (reply : Except TransferError (Option Buffer)) :
  ∃ c' xs, c.Resumes tag reply c' xs
  := by
  cases h with
  | wait => exact ⟨_, _, .wait⟩
  | finish =>
    cases reply with
    | ok buffer => exact ⟨_, _, .collected⟩
    | error cause => exact ⟨_, _, .failed⟩

/-- The end of a wait accepts no transfer. -/
theorem Resumes.accepted_eq_nil (h : c.Resumes tag reply c' xs) :
  accepted xs = []
  := by
  cases h <;> rfl

theorem Quiet.accepted_eq_nil (h : c.Quiet slots worker c' xs) :
  accepted xs = []
  := by
  cases h with
  | nothing _ h => exact h.accepted_eq_nil
  | _ => rfl

/-- The end of a wait answers calls with no other error than the one that it ends with. -/
theorem Resumes.error_eq (h : c.Resumes tag reply c' xs) {x : Exchange} (hx : x ∈ xs)
    {cause : TransferError} (herror : x.error? = some cause) :
  reply = .error cause
  := by
  cases h with
  | @wait _ _ reply =>
    obtain rfl := List.mem_singleton.mp hx
    cases reply with
    | ok => cases herror
    | error =>
      cases herror
      rfl
  | collected => cases hx
  | failed =>
    obtain rfl := List.mem_singleton.mp hx
    cases herror
    rfl

/-- Only a client whose worker is gone is told so without receiving anything. -/
theorem Quiet.error_ne (h : c.Quiet slots worker c' xs) (hworker : ¬ worker.IsGone) {x : Exchange}
    (hx : x ∈ xs) (tag : Tag) :
  x.error? ≠ some (.disconnected tag)
  := by
  intro herror
  cases h with
  | busy =>
    obtain rfl := List.mem_singleton.mp hx
    cases herror
  | cutOff _ hgone => exact hworker hgone
  | nothing _ h => cases h.error_eq hx herror
  | finish => cases hx
  | finished =>
    obtain rfl := List.mem_singleton.mp hx
    cases herror

end Client

end ReplicaSum
