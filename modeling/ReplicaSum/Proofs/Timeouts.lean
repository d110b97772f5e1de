import ReplicaSum.Proofs.Accounting
import ReplicaSum.Proofs.Delivery

/-!
# Every buffer is accounted for

A threaded engine may be given a timeout. A wait under it gives up when the worker takes too long to
say how the transfer went. The client is told so, the tag is free again, and nobody receives the
outcome any more; the worker doesn't notice. With such waits too, client and worker stay connected,
and the slots account for the uncollected transfers. With that, no engine loses track of a buffer.
-/

namespace ReplicaSum

namespace Wired

variable {Channel α : Type} {w : Window} {st st' : Wired Channel α} {d₀ data data' : Data}
variable {tag : Tag} {t : Transfer} {ticket : Nat}

/-! ### Tickets -/

/-- The transfer that was accepted under a ticket. -/
def Ticketed (xs : List Exchange) (ticket : Nat) (t : Transfer) : Prop :=
  (accepted xs)[ticket]? = some t

theorem Ticketed.append {xs : List Exchange} (h : Ticketed xs ticket t) (ys : List Exchange) :
  Ticketed (xs ++ ys) ticket t
  := by
  obtain ⟨hlt, -⟩ := List.getElem?_eq_some_iff.mp h
  rw [Ticketed, accepted_append, List.getElem?_append_left hlt]
  exact h

/-- The next ticket is the number of a new channel. -/
theorem InOrder.ticketed_next (h : st.InOrder) (tag : Tag) (t : Transfer) :
  Ticketed (st.transcript ++ [⟨.submit tag t, .ok ()⟩]) st.channels.length t
  := by
  have hlength : (accepted st.transcript).length = st.channels.length := by
    rw [h.accepted_eq, List.length_append, List.length_map, List.length_map, h.channels]
  rw [Ticketed, accepted_append, ← hlength]
  apply List.getElem?_concat_length

/-- The outcome that is announced for a ticket belongs to the transfer that was accepted under it.
-/
theorem InOrder.getElem?_carried (h : st.InOrder) {outcome : Except TransferError Buffer}
    (hannounced : st.announced[ticket]? = some outcome) (ht : Ticketed st.transcript ticket t) :
  st.carried[ticket]? = some (t, outcome)
  := by
  rw [announced, List.getElem?_take] at hannounced
  split at hannounced
  · rw [List.getElem?_map, Option.map_eq_some_iff] at hannounced
    obtain ⟨x, hx, rfl⟩ := hannounced
    have hfst : (st.carried.map Prod.fst)[ticket]? = some x.1 := by
      rw [List.getElem?_map, hx]
      rfl
    obtain ⟨hlt, -⟩ := List.getElem?_eq_some_iff.mp hfst
    rw [Ticketed, h.accepted_eq, List.getElem?_append_left hlt, hfst] at ht
    cases ht
    exact hx
  · cases hannounced

/-! ### Waits that time out -/

variable [OneShot Channel]

/-- The steps of a worker and of a client with a timeout, however long that is. A wait may time out
whenever there is nothing to receive yet. -/
inductive TimedStep (w : Window) : Wired Channel α × Data → Wired Channel α × Data → Prop where
  | step {st st' : Wired Channel α × Data} (h : Step w st st') : TimedStep w st st'
  /-- The client gives up on what it was blocked on, and lets go of the receiving end. -/
  | giveUp {st : Wired Channel α} {data : Data} {tag : Tag} {ticket : Nat} {channel : Channel}
      {c' : Client α} {xs : List Exchange} (hwaiting : st.waiting = some (tag, ticket))
      (hchannel : st.channels[ticket]? = some channel)
      (hreceive : OneShot.receive? channel tag = none)
      (hclient : st.client.Resumes tag (.error (.timedOut tag)) c' xs) :
      TimedStep w (st, data)
        ({ st with
            client := c',
            waiting := none,
            transcript := st.transcript ++ xs,
            channels := st.channels.set ticket (OneShot.deafened channel) }, data)

/-- Every step is sound, also of a client that gives up on a wait. -/
theorem TimedStep.sound (hstep : TimedStep w (st, data) (st', data')) (h : Sound w d₀ st data) :
  Sound w d₀ st' data'
  := by
  cases hstep with
  | step hstep => exact hstep.sound h
  | @giveUp _ _ tag ticket channel c' xs hwaiting hchannel _ hclient =>
    constructor
    · refine h.inOrder.congr rfl rfl (List.length_set ..) ?_
      rw [accepted_append, hclient.accepted_eq_nil, List.append_nil]
    · exact h.announced.received hchannel _ _
    · exact h.held.received hwaiting _ _ _
    · refine ⟨?_, h.connected.outcomes, h.connected.unharmed, h.connected.exited⟩
      intro x hx tag'
      rcases List.mem_append.mp hx with hx | hx
      · apply h.connected.said x hx
      · intro herror
        cases hclient.error_eq hx herror
    · exact h.fits
    · exact h.data_eq

end Wired

/-! ### Books -/

namespace Client

variable {α : Type} {w : Window} {R R' : Nat → Transfer → Prop} {slots : TagSlots Nat}
variable {c c' : Client α} {tag : Tag} {xs ys : List Exchange}
variable {reply : Except TransferError (Option Buffer)}

/-- The slots of a client account for the transfers in `held`, but for those that it has waited for
on behalf of a call that finishes. -/
def Owes (w : Window) (R : Nat → Transfer → Prop) (slots : TagSlots Nat)
    (held : List (Tag × Transfer)) : Client α → Prop
  | .running _ => Kept R slots held
  | .finishing tags _ => Finishing w tags held ∧ Kept R slots (held.filter fun x => x.1 ∈ tags)

theorem Owes.mono {held : List (Tag × Transfer)} (h : c.Owes w R slots held)
    (hR : ∀ ticket t, R ticket t → R' ticket t) :
  c.Owes w R' slots held
  := by
  cases c with
  | running session => exact Kept.mono h hR
  | finishing tags next => exact ⟨h.1, h.2.mono hR⟩

/-- A wait under a tag ends, and its slot is empty then. -/
theorem Owes.resumes (h : c.Owes w R slots (uncollected w xs)) (hall : AllDue w xs)
    (hresumes : c.Resumes tag reply c' ys) (hfree : slots.get? tag = none → reply = .ok none)
    (htaken : ∀ ticket, slots.get? tag = some ticket → ∀ t, R ticket t →
      reply = .error (.timedOut tag) ∨ ∃ d, reply = (t.perform w d).1.map some) :
  AllDue w (xs ++ ys) ∧ c'.Owes w R (slots.set tag none) (uncollected w (xs ++ ys))
  := by
  cases hresumes with
  | wait =>
    have hkept : Kept R slots (uncollected w xs) := h
    rw [uncollected_concat]
    exact ⟨hall.concat (hkept.due_wait hfree htaken), hkept.freed tag⟩
  | collected =>
    obtain ⟨hfinishing, hkept⟩ := h
    rw [List.append_nil]
    refine ⟨hall, hfinishing.collected (hkept.due_wait hfree htaken), ?_⟩
    rw [← hfinishing.filter_tail]
    apply hkept.freed
  | failed =>
    obtain ⟨hfinishing, hkept⟩ := h
    have hleft := hfinishing.leftBy_eq (hkept.due_wait hfree htaken)
    rw [uncollected_concat]
    refine ⟨hall.concat trivial, ?_⟩
    rw [Owes, Exchange.leaves, hleft, ← hfinishing.filter_tail]
    apply hkept.freed

/-- A step without sending or receiving is answered by a worker that is not gone. -/
theorem Owes.quiet {worker : CopyWorker} (h : c.Owes w R slots (uncollected w xs))
    (hall : AllDue w xs) (hquiet : c.Quiet slots worker c' ys) (hworker : ¬ worker.IsGone) :
  AllDue w (xs ++ ys) ∧ c'.Owes w R slots (uncollected w (xs ++ ys))
  := by
  cases hquiet with
  | busy =>
    rw [uncollected_concat]
    exact ⟨hall.concat fun _ => rfl, h⟩
  | cutOff _ hgone => exact absurd hgone hworker
  | @nothing _ _ tag _ hslot hresumes =>
    have hended := h.resumes hall hresumes (fun _ => rfl) (by simp [hslot])
    rw [TagSlots.set_none hslot] at hended
    exact hended
  | finish =>
    have hkept : Kept R slots (uncollected w xs) := h
    obtain ⟨hfinishing, hpending⟩ := Finishing.of_kept (w := w) hkept
    rw [List.append_nil]
    refine ⟨hall, hfinishing, ?_⟩
    rw [hpending]
    exact hkept
  | finished =>
    rw [uncollected_concat]
    refine ⟨hall.concat trivial, ?_⟩
    change Kept R slots []
    simpa using h.2

end Client

namespace Wired

variable {Channel α : Type} {w : Window} {st st' : Wired Channel α} {d₀ data data' : Data}
variable {tag : Tag}

/-- What is in the slots accounts for the uncollected transfers, and what the worker has carried out
went as it had to. -/
structure Books (w : Window) (st : Wired Channel α) : Prop where
  due : AllDue w st.transcript
  carried : ∀ x ∈ st.carried, ∃ d, (x.1.perform w d).1 = x.2
  owes : st.client.Owes w (Ticketed st.transcript) st.allSlots (uncollected w st.transcript)

namespace Books

/-- Nothing happens between client and slots. -/
theorem congr (h : st.Books w) (hclient : st'.client = st.client)
    (htranscript : st'.transcript = st.transcript) (hslots : st'.allSlots = st.allSlots)
    (hcarried : st'.carried = st.carried) :
  st'.Books w
  where
  due := by rw [htranscript]; exact h.due
  carried := by rw [hcarried]; exact h.carried
  owes := by rw [hclient, htranscript, hslots]; exact h.owes

/-- The client takes a step, in which the calls `xs` are answered. -/
theorem of_owes (h : st.Books w) {xs : List Exchange}
    (htranscript : st'.transcript = st.transcript ++ xs) (hcarried : st'.carried = st.carried)
    (howes : AllDue w (st.transcript ++ xs) ∧
      st'.client.Owes w (Ticketed st.transcript) st'.allSlots
        (uncollected w (st.transcript ++ xs))) :
  st'.Books w
  where
  due := by
    rw [htranscript]
    exact howes.1
  carried := by
    rw [hcarried]
    exact h.carried
  owes := by
    rw [htranscript]
    exact howes.2.mono fun _ _ ht => ht.append xs

theorem start (w : Window) (session : Session α) :
  (Wired.start session : Wired Channel α).Books w
  where
  due := .nil w
  carried _ hx := nomatch hx
  owes := Kept.empty _

/-- Between two calls, as many tags are busy as there are uncollected transfers. -/
theorem nPending_eq (h : st.Books w) {session : Session α}
    (hclient : st.client = .running session) (hwaiting : st.waiting = none) :
  st.slots.nPending = (uncollected w st.transcript).length
  := by
  have howes := h.owes
  rw [hclient, allSlots_of_none hwaiting] at howes
  exact Kept.nPending_eq howes

variable [OneShot Channel]

/-- A wait that was blocked ends. -/
theorem resumed (h : st.Books w) {ticket : Nat} {c' : Client α} {xs : List Exchange}
    {reply : Except TransferError (Option Buffer)} (hheld : st.Held)
    (hwaiting : st.waiting = some (tag, ticket)) (hresumes : st.client.Resumes tag reply c' xs)
    (hreply : ∀ t, Ticketed st.transcript ticket t →
      reply = .error (.timedOut tag) ∨ ∃ d, reply = (t.perform w d).1.map some)
    (channels : List Channel) :
  Books w { st with
    client := c', waiting := none, transcript := st.transcript ++ xs, channels := channels }
  := by
  have hslots := allSlots_of_some hwaiting
  have hslot := get?_allSlots hwaiting
  have hfree : st.allSlots.get? tag = none → reply = .ok none := by
    intro hnone
    cases hslot.symm.trans hnone
  have htaken : ∀ ticket', st.allSlots.get? tag = some ticket' →
      ∀ t, Ticketed st.transcript ticket' t →
        reply = .error (.timedOut tag) ∨ ∃ d, reply = (t.perform w d).1.map some := by
    intro ticket' hticket' t ht
    cases hslot.symm.trans hticket'
    exact hreply t ht
  have hended := h.owes.resumes h.due hresumes hfree htaken
  obtain ⟨-, -, hempty⟩ := hheld.waits tag ticket hwaiting
  rw [hslots, TagSlots.set_set, TagSlots.set_none hempty] at hended
  exact h.of_owes rfl rfl hended

/-- What a client receives is how the transfer went that it waits for. -/
theorem exists_perform (h : st.Books w) (hsound : Sound w d₀ st data) {ticket : Nat}
    {channel : Channel} {outcome : Except TransferError Buffer}
    (hwaiting : st.waiting = some (tag, ticket)) (hchannel : st.channels[ticket]? = some channel)
    (hreceive : OneShot.receive? channel tag = some outcome) {t : Transfer}
    (ht : Ticketed st.transcript ticket t) :
  ∃ d, (t.perform w d).1 = outcome
  := by
  have hannounced :=
    outcome_mem_announced hsound.announced hsound.held hwaiting hchannel hreceive
  exact h.carried _ (List.mem_of_getElem? (hsound.inOrder.getElem?_carried hannounced ht))

end Books

variable [OneShot Channel]

/-- Every step keeps the books. -/
theorem Step.books (hstep : Step w (st, data) (st', data')) (hsound : Sound w d₀ st data)
    (h : st.Books w) :
  st'.Books w
  := by
  cases hstep with
  | quiet hwaiting hquiet =>
    have hslots := allSlots_of_none hwaiting
    have hgone := hsound.connected.not_isGone (hsound.held.hasEngine_of_quiet hquiet)
    rw [← hslots] at hquiet
    refine h.of_owes rfl rfl ?_
    have howes := h.owes.quiet h.due hquiet hgone
    rw [hslots] at howes
    rw [allSlots, hwaiting]
    exact howes
  | @submit _ _ tag t next hwaiting hclient hfree =>
    have hslots := allSlots_of_none hwaiting
    have hkept : Kept (Ticketed st.transcript) st.slots (uncollected w st.transcript) := by
      have howes := h.owes
      rw [hclient, hslots] at howes
      exact howes
    constructor
    · exact h.due.concat (hkept.due_submit hfree _)
    · exact h.carried
    · rw [uncollected_concat, allSlots, hwaiting]
      exact (hkept.mono fun _ _ ht => ht.append _).begun hfree
        (hsound.inOrder.ticketed_next tag t)
  | block hwaiting _ hslot =>
    exact h.congr rfl rfl (allSlots_of_blocked hwaiting hslot rfl rfl) rfl
  | @receive _ _ tag ticket _ outcome _ _ hwaiting hchannel hreceive hclient =>
    refine h.resumed hsound.held hwaiting hclient ?_ _
    intro t ht
    right
    obtain ⟨d, hperform⟩ := h.exists_perform hsound hwaiting hchannel hreceive ht
    use d
    rw [hperform]
  | copy _ _ hperform =>
    refine ⟨h.due, ?_, h.owes⟩
    intro x hx
    rcases List.mem_append.mp hx with hx | hx
    · exact h.carried x hx
    · obtain rfl := List.mem_singleton.mp hx
      use data
      rw [hperform]
  | panic hworker hcheck hbounds => exact absurd (hsound.safe _ _ hworker hcheck) hbounds
  | _ => exact h.congr rfl rfl rfl rfl

theorem TimedStep.books (hstep : TimedStep w (st, data) (st', data')) (hsound : Sound w d₀ st data)
    (h : st.Books w) :
  st'.Books w
  := by
  cases hstep with
  | step hstep => exact hstep.books hsound h
  | giveUp hwaiting _ _ hclient =>
    exact h.resumed hsound.held hwaiting hclient (fun _ _ => .inl rfl) _

/-- Whatever a client and its worker do, they stay sound and keep their books. -/
theorem books_of_reachable {session : Session α} {st : Wired Channel α × Data}
    (hfits : w.Fits d₀.size) (h : Relation.ReflTransGen (TimedStep w) (.start session, d₀) st) :
  Sound w d₀ st.1 st.2 ∧ st.1.Books w
  := by
  induction h with
  | refl => exact ⟨sound_start hfits session, .start w session⟩
  | tail _ hstep ih => exact ⟨hstep.sound ih.1, hstep.books ih.1 ih.2⟩

end Wired

/-! ### Begins -/

namespace Client

variable {α : Type} {c c' : Client α} {tag tag' : Tag} {t : Transfer} {xs : List Exchange}

/-- The end of a wait answers no begin. -/
theorem Resumes.ne_submit {r : Except TransferError (Option Buffer)} (h : c.Resumes tag' r c' xs)
    (reply : Except TransferError Unit) :
  xs ≠ [⟨.submit tag t, reply⟩]
  := by
  cases h with
  | _ => simp

/-- A begin that is answered without sending anything is refused. -/
theorem Quiet.submit_refused {slots : TagSlots Nat} {worker : CopyWorker}
    {reply : Except TransferError Unit}
    (h : c.Quiet slots worker c' [⟨.submit tag t, reply⟩]) (hworker : ¬ worker.IsGone) :
  slots.isPending tag = true ∧ reply = .error (.tagBusy tag)
  := by
  cases h with
  | busy hbusy => exact ⟨hbusy, rfl⟩
  | cutOff _ hgone => exact absurd hgone hworker
  | nothing _ hresumes => exact absurd rfl (hresumes.ne_submit reply)

end Client

namespace Wired

variable {Channel α : Type} [OneShot Channel] {w : Window} {st st' : Wired Channel α}
variable {d₀ data data' : Data} {tag : Tag}
variable {t : Transfer}

/-- A client that begins a transfer is answered at once. If it is refused, no request has been sent.
-/
structure AllOrNothing (w : Window) (st : Wired Channel α) (data : Data) (tag : Tag)
    (t : Transfer) : Prop where
  answered : ∃ st', TimedStep w (st, data) (st', data) ∧
    st'.transcript = st.transcript ++ [⟨.submit tag t, st.slots.beginReply tag⟩]
  reply_eq : ∀ st' data' reply, TimedStep w (st, data) (st', data') →
    st'.transcript = st.transcript ++ [⟨.submit tag t, reply⟩] → reply = st.slots.beginReply tag
  unsent : ∀ st' data' cause, TimedStep w (st, data) (st', data') →
    st'.transcript = st.transcript ++ [⟨.submit tag t, .error cause⟩] →
      st'.queue = st.queue ∧ st'.channels = st.channels ∧ st'.slots = st.slots ∧ data' = data

/-- A step in which a begin is answered refuses it and changes nothing else, or accepts it. -/
theorem TimedStep.of_submit (hstep : TimedStep w (st, data) (st', data'))
    (hsound : Sound w d₀ st data) {reply : Except TransferError Unit}
    (htranscript : st'.transcript = st.transcript ++ [⟨.submit tag t, reply⟩]) :
  (st.slots.isPending tag = true ∧ reply = .error (.tagBusy tag) ∧ st'.queue = st.queue ∧
      st'.channels = st.channels ∧ st'.slots = st.slots ∧ data' = data)
    ∨ (st.slots.isPending tag = false ∧ reply = .ok ())
  := by
  cases hstep with
  | step hstep =>
    cases hstep with
    | quiet _ hquiet =>
      cases List.append_cancel_left htranscript
      have hgone := hsound.connected.not_isGone (hsound.held.hasEngine_of_quiet hquiet)
      obtain ⟨hbusy, hreply⟩ := hquiet.submit_refused hgone
      exact .inl ⟨hbusy, hreply, rfl, rfl, rfl, rfl⟩
    | submit _ _ hfree =>
      cases List.append_cancel_left htranscript
      right
      rw [TagSlots.isPending, hfree]
      exact ⟨rfl, rfl⟩
    | receive _ _ _ hresumes =>
      exact absurd (List.append_cancel_left htranscript) (hresumes.ne_submit reply)
    | _ => simp at htranscript
  | giveUp _ _ _ hresumes =>
    exact absurd (List.append_cancel_left htranscript) (hresumes.ne_submit reply)

/-- In every state, a client with a worker that is there is answered that way. -/
theorem Sound.allOrNothing (h : Sound w d₀ st data)
    {next : Except TransferError Unit → Session α}
    (hclient : st.client = .running (.call (.submit tag t) next)) :
  st.AllOrNothing w data tag t
  where
  answered := by
    have hwaiting : st.waiting = none := by
      by_contra hne
      obtain ⟨⟨tag', ticket⟩, hwaiting⟩ := Option.ne_none_iff_exists'.mp hne
      obtain ⟨-, hwaits, -⟩ := h.held.waits tag' ticket hwaiting
      rw [hclient] at hwaits
      cases hwaits
    rw [TagSlots.beginReply]
    split
    · rename_i hbusy
      have hquiet : st.client.Quiet st.slots st.worker
          (.running (next (.error (.tagBusy tag)))) [⟨.submit tag t, .error (.tagBusy tag)⟩] := by
        rw [hclient]
        exact .busy hbusy
      exact ⟨_, .step (.quiet hwaiting hquiet), rfl⟩
    · rename_i hbusy
      have hfree := TagSlots.get?_eq_none (eq_false_of_ne_true hbusy)
      have hgone := h.connected.not_isGone (h.held.hasEngine_of_call hclient)
      exact ⟨_, .step (.submit hwaiting hclient hfree hgone), rfl⟩
  reply_eq st' data' reply hstep htranscript := by
    rw [TagSlots.beginReply]
    rcases hstep.of_submit h htranscript with ⟨hbusy, hreply, -⟩ | ⟨hfree, hreply⟩
    · rw [hreply, if_pos hbusy]
    · rw [hreply, hfree]
      rfl
  unsent st' data' cause hstep htranscript := by
    rcases hstep.of_submit h htranscript with ⟨-, -, hunchanged⟩ | ⟨-, hreply⟩
    · exact hunchanged
    · cases hreply

end Wired

/-! ### All engines -/

/-- In every state that a session reaches on an immediate engine, on a threaded engine, or with a
worker behind channels and waits that may time out, a begin is all or nothing, every wait that hands
out a buffer hands out that of the latest transfer under its tag, no buffer is handed out twice, and
the busy tags are those of the transfers that have not been collected. A tag for input is also one
for output. -/
theorem Session.buffers_accounted (Channel : Type) [OneShot Channel] {α : Type} (w : Window)
    (session : Session α) (data : Data) :
  (∀ xs rest e d, session.Reaches (Immediate.new w) data xs rest e d →
      Accounted w xs ∧ e.slots.nPending = (uncollected w xs).length ∧
        ∀ tag t, e.AllOrNothing d tag t)
    ∧ (∀ xs rest e d, session.Reaches (Threaded.new w) data xs rest e d →
      Accounted w xs ∧ e.slots.nPending = (uncollected w xs).length ∧ ∀ tag t, e.AllOrNothing tag t)
    ∧ (w.Fits data.size →
      ∀ (st : Wired Channel α) (d : Data),
        Relation.ReflTransGen (Wired.TimedStep w) (.start session, data) (st, d) →
        Accounted w st.transcript ∧
        (∀ rest, st.client = .running rest → st.waiting = none →
          st.slots.nPending = (uncollected w st.transcript).length) ∧
        ∀ tag t next, st.client = .running (.call (.submit tag t) next) →
          st.AllOrNothing w d tag t)
    ∧ ∀ array, Tag.input array = Tag.output array.castSucc
  := by
  refine ⟨?_, ?_, ?_, fun _ => rfl⟩
  · intro xs rest e d hreaches
    obtain ⟨hdue, howes⟩ := hreaches.allDue (Immediate.keepsBooks w) ⟨rfl, .empty _⟩
    exact ⟨hdue.accounted, howes.kept.nPending_eq, e.allOrNothing d⟩
  · intro xs rest e d hreaches
    obtain ⟨hdue, s, d', hahead, howes⟩ := hreaches.allDue (Threaded.keepsBooks w)
      ⟨.new w, data, .new w data, rfl, .empty _⟩
    refine ⟨hdue.accounted, ?_, e.allOrNothing⟩
    rw [TagSlots.nPending, ← hahead.pending_eq]
    exact howes.kept.nPending_eq
  · intro hfits st d hst
    obtain ⟨hsound, hbooks⟩ := Wired.books_of_reachable hfits hst
    refine ⟨hbooks.due.accounted, fun _ => hbooks.nPending_eq, ?_⟩
    intro tag t next hclient
    exact hsound.allOrNothing hclient

/-- Fetch a record, try to store one under the same tag, and wait twice. -/
def Session.getThenReuse (tag : Tag) (fetched stored : Buffer) :
    Session (Except TransferError (Option Buffer)) := do
  let _ ← request (.submit tag (.get 0 ⟨0, 1⟩ fetched))
  let _ ← request (.submit tag (.put ⟨1, 2⟩ stored))
  let _ ← request (.wait tag)
  request (.wait tag)

/-- The transfer that comes second is refused. The buffer of the first one comes back once, or not
at all when the wait for it times out. -/
theorem Session.buffers_accounted_reused_tag :
  ∃ (w : Window) (data : Data) (fetched stored filled : Buffer) (begins waits : List Exchange),
    w = ⟨⟨0, 2⟩, 1, 2⟩ ∧ data = #[Lanes.splat 2.5, Lanes.zero] ∧
    fetched = ⟨.staged 0, #[Lanes.zero]⟩ ∧ stored = ⟨.out, #[Lanes.splat 1.5]⟩ ∧
    filled = ⟨.staged 0, #[Lanes.splat 2.5]⟩ ∧
    begins = [⟨.submit ⟨1⟩ (.get 0 ⟨0, 1⟩ fetched), .ok ()⟩,
      ⟨.submit ⟨1⟩ (.put ⟨1, 2⟩ stored), .error (.tagBusy ⟨1⟩)⟩] ∧
    waits = [⟨.wait ⟨1⟩, .ok (some filled)⟩, ⟨.wait ⟨1⟩, .ok none⟩] ∧
    (∃ e, (getThenReuse ⟨1⟩ fetched stored).Reaches (Immediate.new w) data (begins ++ waits)
        (.done (.ok none)) e data ∧
      e.slots.nPending = 0 ∧ ∃ i, Returned (begins ++ waits) i 2) ∧
    (∃ e, (getThenReuse ⟨1⟩ fetched stored).Reaches (Threaded.new w) data (begins ++ waits)
        (.done (.ok none)) e data ∧
      e.slots.nPending = 0 ∧ ∃ i, Returned (begins ++ waits) i 2) ∧
    ∃ st : Wired PlainChannel _,
      Relation.ReflTransGen (Wired.TimedStep w) (.start (getThenReuse ⟨1⟩ fetched stored), data)
        (st, data) ∧
      st.transcript = begins ++ [⟨.wait ⟨1⟩, .error (.timedOut ⟨1⟩)⟩] ∧ st.slots.nPending = 0
  := by
  refine ⟨⟨⟨0, 2⟩, 1, 2⟩, #[Lanes.splat 2.5, Lanes.zero], ⟨.staged 0, #[Lanes.zero]⟩,
    ⟨.out, #[Lanes.splat 1.5]⟩, ⟨.staged 0, #[Lanes.splat 2.5]⟩, _, _, rfl, rfl, rfl, rfl, rfl,
    rfl, rfl, ?_, ?_, ?_⟩
  · have hreaches := reaches_run
      (getThenReuse ⟨1⟩ ⟨.staged 0, #[Lanes.zero]⟩ ⟨.out, #[Lanes.splat 1.5]⟩)
      (Immediate.new ⟨⟨0, 2⟩, 1, 2⟩) #[Lanes.splat 2.5, Lanes.zero]
    obtain ⟨haccounted, hpending, -⟩ := (buffers_accounted PlainChannel _ _ _).1 _ _ _ _ hreaches
    exact ⟨_, hreaches, hpending, haccounted.returned 2 _ _ rfl⟩
  · have hreaches := reaches_run
      (getThenReuse ⟨1⟩ ⟨.staged 0, #[Lanes.zero]⟩ ⟨.out, #[Lanes.splat 1.5]⟩)
      (Threaded.new ⟨⟨0, 2⟩, 1, 2⟩) #[Lanes.splat 2.5, Lanes.zero]
    obtain ⟨haccounted, hpending, -⟩ := (buffers_accounted PlainChannel _ _ _).2.1 _ _ _ _ hreaches
    exact ⟨_, hreaches, hpending, haccounted.returned 2 _ _ rfl⟩
  · have hfits : Window.Fits ⟨⟨0, 2⟩, 1, 2⟩ (#[Lanes.splat 2.5, Lanes.zero] : Data).size := by
      constructor <;> decide
    obtain ⟨st, hst, hclient, hwaiting, htranscript⟩ : ∃ st : Wired PlainChannel _,
        Relation.ReflTransGen (Wired.TimedStep ⟨⟨0, 2⟩, 1, 2⟩)
          (.start (getThenReuse ⟨1⟩ ⟨.staged 0, #[Lanes.zero]⟩ ⟨.out, #[Lanes.splat 1.5]⟩),
            #[Lanes.splat 2.5, Lanes.zero]) (st, #[Lanes.splat 2.5, Lanes.zero]) ∧
        st.client = .running (request (.wait ⟨1⟩)) ∧ st.waiting = none ∧
        st.transcript = [⟨.submit ⟨1⟩ (.get 0 ⟨0, 1⟩ ⟨.staged 0, #[Lanes.zero]⟩), .ok ()⟩,
          ⟨.submit ⟨1⟩ (.put ⟨1, 2⟩ ⟨.out, #[Lanes.splat 1.5]⟩), .error (.tagBusy ⟨1⟩)⟩,
          ⟨.wait ⟨1⟩, .error (.timedOut ⟨1⟩)⟩] := by
      -- The worker does nothing until the client gives up.
      refine ⟨_, .tail (.tail (.tail (.tail .refl (.step (.submit rfl rfl rfl ?_)))
        (.step (.quiet rfl (.busy rfl)))) (.step (.block rfl .wait rfl)))
        (.giveUp rfl rfl rfl .wait), rfl, rfl, rfl⟩
      rintro (h | h) <;> cases h
    obtain ⟨-, hpending, -⟩ := (buffers_accounted PlainChannel _ _ _).2.2.1 hfits st _ hst
    refine ⟨st, hst, htranscript, ?_⟩
    rw [hpending _ hclient hwaiting, htranscript]
    rfl

end ReplicaSum
