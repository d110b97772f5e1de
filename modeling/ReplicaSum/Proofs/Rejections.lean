import ReplicaSum.Proofs.Promises

/-!
# Every rejection is reported once

A transfer that storage rejects fails only when somebody waits for it. A call that finishes waits
for the transfers in flight in the order of their tags, and ends at the first one that failed. Those
behind it stay in flight, so the next such call goes on with them: calls that finish, one after the
other, report the rejections one by one, and after that they report none.
-/

namespace ReplicaSum

/-! ### What is reported -/

/-- The reason for which storage rejects a transfer. -/
def Transfer.rejection? (w : Window) (t : Transfer) : Option TransferError :=
  match t.check w with
  | .ok () => none
  | .error cause => some cause

theorem Transfer.rejection?_eq_none {w : Window} {t : Transfer} :
  t.rejection? w = none ↔ t.check w = .ok ()
  := by
  rw [rejection?]
  cases t.check w with
  | ok => simp
  | error cause => simp

theorem Transfer.rejection?_eq_some {w : Window} {t : Transfer} {cause : TransferError} :
  t.rejection? w = some cause ↔ t.check w = .error cause
  := by
  rw [rejection?]
  cases t.check w with
  | ok => simp
  | error cause => simp

/-- The reasons for which storage rejects some of the given transfers. -/
def rejections (w : Window) (held : List (Tag × Transfer)) : List TransferError :=
  held.filterMap fun x => x.2.rejection? w

/-- The reply of a call that finishes, if these are the reasons for which transfers in flight are
rejected. -/
def finishReply : List TransferError → Except TransferError Unit
  | [] => .ok ()
  | cause :: _ => .error cause

/-- The replies of `n` calls that finish, one after the other. -/
def finishReplies (n : Nat) (causes : List TransferError) : List (Except TransferError Unit) :=
  (causes.map Except.error ++ List.replicate n (Except.ok ())).take n

/-- The transfers behind the first one that is rejected. -/
def behindRejected (w : Window) (held : List (Tag × Transfer)) : List (Tag × Transfer) :=
  (held.dropWhile fun x => (x.2.rejection? w).isNone).tail

section Reports

variable {w : Window} {held before after : List (Tag × Transfer)} {tag : Tag} {t : Transfer}
variable {cause : TransferError} {causes : List TransferError}

theorem rejections_cons_of_ok (h : t.check w = .ok ()) (held : List (Tag × Transfer)) :
  rejections w ((tag, t) :: held) = rejections w held
  := List.filterMap_cons_none (Transfer.rejection?_eq_none.mpr h)

theorem rejections_cons_of_error (h : t.check w = .error cause) (held : List (Tag × Transfer)) :
  rejections w ((tag, t) :: held) = cause :: rejections w held
  := List.filterMap_cons_some (Transfer.rejection?_eq_some.mpr h)

theorem behindRejected_cons_of_ok (h : t.check w = .ok ()) (held : List (Tag × Transfer)) :
  behindRejected w ((tag, t) :: held) = behindRejected w held
  := by
  rw [behindRejected, List.dropWhile_cons_of_pos, behindRejected]
  rw [Transfer.rejection?_eq_none.mpr h]
  rfl

theorem behindRejected_cons_of_error (h : t.check w = .error cause)
    (held : List (Tag × Transfer)) :
  behindRejected w ((tag, t) :: held) = held
  := by
  rw [behindRejected, List.dropWhile_cons_of_neg, List.tail_cons]
  rw [Transfer.rejection?_eq_some.mpr h]
  exact Bool.false_ne_true

/-- Some transfer is rejected first, or none is. -/
theorem rejected_or_not (w : Window) (held : List (Tag × Transfer)) :
  (rejections w held = [] ∧ behindRejected w held = [] ∧ ∀ x ∈ held, x.2.check w = .ok ())
    ∨ ∃ before x after cause, held = before ++ x :: after ∧
        (∀ y ∈ before, y.2.check w = .ok ()) ∧ x.2.check w = .error cause ∧
        rejections w held = cause :: rejections w after ∧ behindRejected w held = after
  := by
  induction held with
  | nil => exact .inl ⟨rfl, rfl, nofun⟩
  | cons x held ih =>
    obtain ⟨tag, t⟩ := x
    cases hcheck : t.check w with
    | error cause =>
      right
      use [], (tag, t), held, cause
      exact ⟨rfl, nofun, hcheck, rejections_cons_of_error hcheck held,
        behindRejected_cons_of_error hcheck held⟩
    | ok =>
      rw [rejections_cons_of_ok hcheck, behindRejected_cons_of_ok hcheck]
      rcases ih with
        ⟨hnone, hrest, hok⟩ | ⟨before, x, after, cause, hsplit, hok, hx, hcauses, hrest⟩
      · exact .inl ⟨hnone, hrest, List.forall_mem_cons.mpr ⟨hcheck, hok⟩⟩
      · right
        use (tag, t) :: before, x, after, cause
        exact ⟨congrArg _ hsplit, List.forall_mem_cons.mpr ⟨hcheck, hok⟩, hx, hcauses, hrest⟩

/-- A call that finishes takes the first rejection off the list. -/
theorem rejections_behindRejected (w : Window) (held : List (Tag × Transfer)) :
  rejections w (behindRejected w held) = (rejections w held).tail
  := by
  rcases rejected_or_not w held with ⟨hnone, hrest, -⟩ | ⟨_, _, _, _, -, -, -, hcauses, hrest⟩
  · rw [hnone, hrest]
    rfl
  · rw [hcauses, hrest]
    rfl

theorem finishReplies_succ (n : Nat) (causes : List TransferError) :
  finishReplies (n + 1) causes = finishReply causes :: finishReplies n causes.tail
  := by
  cases causes with
  | nil => simp [finishReplies, finishReply, List.replicate_succ, List.take_replicate]
  | cons cause causes =>
    have hmin : ∀ m, min (n - m) (n + 1) = min (n - m) n := by
      intro m
      omega
    simp only [finishReplies, finishReply, List.map_cons, List.cons_append, List.take_succ_cons,
      List.tail_cons, List.take_append, List.take_replicate, hmin]

/-- The reply of a call that finishes while the transfers in `held` are in flight, and the tags that
are busy afterwards. If storage rejects none of them, then the call goes well and no tag is busy.
Otherwise it fails with the first rejection in the order of the tags, and the tags behind that one
stay busy. -/
structure FinishReport (w : Window) (held : List (Tag × Transfer))
    (reply : Except TransferError Unit) (busy : Tag → Prop) : Prop where
  ok_iff : reply = .ok () ↔ ∀ x ∈ held, x.2.check w = .ok ()
  freed : reply = .ok () → ∀ u, ¬ busy u
  failed : ∀ cause, reply = .error cause → ∃ x ∈ held, x.2.check w = .error cause ∧
    (∀ y ∈ held, y.1.index < x.1.index → y.2.check w = .ok ()) ∧
    ∀ u, busy u ↔ x.1.index < u.index ∧ u ∈ held.map Prod.fst

namespace FinishReport

variable {busy : Tag → Prop}

/-- Nothing is rejected, and nothing stays. -/
theorem ok (hok : ∀ x ∈ held, x.2.check w = .ok ()) (hfree : ∀ u, ¬ busy u) :
  FinishReport w held (.ok ()) busy
  := ⟨iff_of_true rfl hok, fun _ => hfree, nofun⟩

/-- What stays are the transfers behind the first one that is rejected. -/
theorem error {x : Tag × Transfer} (hx : x ∈ held) (hcheck : x.2.check w = .error cause)
    (hfirst : ∀ y ∈ held, y.1.index < x.1.index → y.2.check w = .ok ())
    (hbusy : ∀ u, busy u ↔ x.1.index < u.index ∧ u ∈ held.map Prod.fst) :
  FinishReport w held (.error cause) busy
  := by
  refine ⟨iff_of_false nofun ?_, nofun, ?_⟩
  · intro hok
    cases (hok x hx).symm.trans hcheck
  · rintro _ ⟨⟩
    exact ⟨x, hx, hcheck, hfirst, hbusy⟩

/-- The reply and the busy tags, read off a list in the order of the tags. -/
theorem of_sorted (hsorted : held.Pairwise fun x y => x.1.index < y.1.index)
    (hbusy : ∀ u, busy u ↔ u ∈ (behindRejected w held).map Prod.fst) :
  FinishReport w held (finishReply (rejections w held)) busy
  := by
  rcases rejected_or_not w held with
    ⟨hnone, hrest, hok⟩ | ⟨before, x, after, cause, rfl, hok, hx, hcauses, hrest⟩
  · rw [hnone]
    rw [hrest] at hbusy
    refine .ok hok ?_
    intro u hu
    cases (hbusy u).mp hu
  · rw [hcauses]
    rw [hrest] at hbusy
    obtain ⟨-, hafter, hbefore⟩ := List.pairwise_append.mp hsorted
    have hmem : x ∈ before ++ x :: after := List.mem_append_right _ List.mem_cons_self
    -- What comes before the rejection is in front of it, and what comes after it is behind it.
    have hfront : ∀ y ∈ before, y.1.index < x.1.index :=
      fun y hy => hbefore y hy x List.mem_cons_self
    have hbehind : ∀ y ∈ after, x.1.index < y.1.index := (List.pairwise_cons.mp hafter).1
    refine .error hmem hx ?_ ?_
    · intro y hy hlt
      rcases List.mem_append.mp hy with hy | hy
      · exact hok y hy
      · rcases List.mem_cons.mp hy with rfl | hy
        · exact absurd hlt (Fin.lt_irrefl _)
        · exact absurd hlt (Fin.lt_asymm (hbehind y hy))
    · intro u
      rw [hbusy, List.mem_map, List.mem_map]
      constructor
      · rintro ⟨y, hy, rfl⟩
        exact ⟨hbehind y hy, y, List.mem_append_right _ (List.mem_cons_of_mem _ hy), rfl⟩
      · rintro ⟨hlt, y, hy, rfl⟩
        use y
        rcases List.mem_append.mp hy with hy | hy
        · exact absurd hlt (Fin.lt_asymm (hfront y hy))
        · rcases List.mem_cons.mp hy with rfl | hy
          · exact absurd hlt (Fin.lt_irrefl _)
          · exact ⟨hy, rfl⟩

end FinishReport

end Reports

/-! ### A call that finishes -/

namespace Wired

variable {Channel α : Type} {w : Window} {st st' : Wired Channel α} {d₀ data data' : Data}
variable {tag : Tag} {t : Transfer} {ticket : Nat}

/-- A client is about to finish, or is at it, and `xs` has been said so far. The slots hold what is
in `slots`, or nothing. The reply is going to be `reply`, and `rest` is going to stay in flight. -/
structure Finishes (w : Window) (next : Except TransferError Unit → Session α) (xs : List Exchange)
    (slots : TagSlots Nat) (reply : Except TransferError Unit) (rest : List (Tag × Transfer))
    (st : Wired Channel α) : Prop where
  client_eq : st.client = .running (.call .finish next) ∨
    st.client = .finishing st.allSlots.pending next
  transcript_eq : st.transcript = xs
  slots_le : ∀ tag ticket, st.allSlots.get? tag = some ticket → slots.get? tag = some ticket
  reply_eq : finishReply (rejections w (inFlight st.allSlots xs)) = reply
  rest_eq : behindRejected w (inFlight st.allSlots xs) = rest

/-- A client has finished. -/
structure HasFinished (next : Except TransferError Unit → Session α) (xs : List Exchange)
    (slots : TagSlots Nat) (reply : Except TransferError Unit) (rest : List (Tag × Transfer))
    (st : Wired Channel α) : Prop where
  client_eq : st.client = .running (next reply)
  waiting_eq : st.waiting = none
  engine_eq : st.hasEngine = true
  transcript_eq : st.transcript = xs ++ [⟨.finish, reply⟩]
  slots_le : ∀ tag ticket, st.slots.get? tag = some ticket → slots.get? tag = some ticket
  rest_eq : inFlight st.slots xs = rest

section Finish

variable {next : Except TransferError Unit → Session α} {xs : List Exchange}
variable {slots : TagSlots Nat} {reply : Except TransferError Unit} {rest : List (Tag × Transfer)}

/-- Nothing happens between client and slots. -/
theorem Finishes.congr (h : st.Finishes w next xs slots reply rest)
    (hclient : st'.client = st.client) (htranscript : st'.transcript = st.transcript)
    (hslots : st'.allSlots = st.allSlots) :
  st'.Finishes w next xs slots reply rest
  where
  client_eq := by rw [hclient, hslots]; exact h.client_eq
  transcript_eq := by rw [htranscript]; exact h.transcript_eq
  slots_le := by rw [hslots]; exact h.slots_le
  reply_eq := by rw [hslots]; exact h.reply_eq
  rest_eq := by rw [hslots]; exact h.rest_eq

/-- What is in flight once a client has finished. -/
theorem HasFinished.inFlight_eq (h : st.HasFinished next xs slots reply rest) :
  inFlight st.slots st.transcript = rest
  := by
  rw [← h.rest_eq]
  apply inFlight_congr
  rw [h.transcript_eq, accepted_append]
  exact List.append_nil _

variable [OneShot Channel]

/-- A client that begins to wait, or has waited for everything, neither sends nor receives. -/
theorem Finishes.quiet (h : st.Finishes w next xs slots reply rest) (hheld : st.Held)
    (hwaiting : st.waiting = none) {c' : Client α} {ys : List Exchange}
    (hquiet : st.client.Quiet st.slots st.worker c' ys) :
  Finishes w next xs slots reply rest { st with client := c', transcript := st.transcript ++ ys }
    ∨ HasFinished next xs slots reply rest
      { st with client := c', transcript := st.transcript ++ ys }
  := by
  have hslots := allSlots_of_none hwaiting
  have hengine := hheld.hasEngine_of_quiet hquiet
  obtain ⟨hclient, rfl, hle, rfl, rfl⟩ := h
  rcases hclient with hrunning | hfinishing
  · rw [hrunning] at hquiet
    cases hquiet with
    | nothing _ hresumes => cases hresumes
    | finish =>
      left
      exact ⟨.inr (congrArg (Client.finishing · next) (congrArg _ hslots.symm)),
        List.append_nil _, hle, rfl, rfl⟩
  · generalize hpending : st.allSlots.pending = tags at hfinishing
    rw [hfinishing] at hquiet
    cases hquiet with
    | nothing hfree hresumes =>
      -- Every tag that is left to wait for is busy.
      have hbusy : ∀ tag, tag ∈ tags → st.slots.get? tag ≠ none := by
        intro tag htag hfree
        rw [← hpending, hslots, TagSlots.mem_pending, TagSlots.isPending, hfree] at htag
        cases htag
      cases hresumes with
      | collected => exact absurd hfree (hbusy _ List.mem_cons_self)
    | finished =>
      right
      have hnone : inFlight st.allSlots st.transcript = [] := inFlight_eq_nil hpending
      rw [hslots] at hle hnone
      rw [hslots, hnone]
      exact ⟨rfl, hwaiting, hengine, rfl, hle, hnone⟩

/-- The client receives how the transfer went that it waits for. -/
theorem Finishes.receive (h : st.Finishes w next xs slots reply rest) (hheld : st.Held)
    (hwaiting : st.waiting = some (tag, ticket)) (ht : Ticketed st.transcript ticket t)
    {outcome : Except TransferError Buffer} (houtcome : ∃ d, (t.perform w d).1 = outcome)
    {c' : Client α} {ys : List Exchange}
    (hresumes : st.client.Resumes tag (outcome.map some) c' ys) (channels : List Channel) :
  Finishes w next xs slots reply rest { st with
      client := c', waiting := none, transcript := st.transcript ++ ys, channels := channels }
    ∨ HasFinished next xs slots reply rest { st with
      client := c', waiting := none, transcript := st.transcript ++ ys, channels := channels }
  := by
  obtain ⟨hengine, -, hempty⟩ := hheld.waits tag ticket hwaiting
  have hslots := allSlots_of_some hwaiting
  have hslot := get?_allSlots hwaiting
  have hfreed : st.allSlots.set tag none = st.slots := by
    rw [hslots, TagSlots.set_set, TagSlots.set_none hempty]
  have hle' : ∀ u k, st.slots.get? u = some k → st.allSlots.get? u = some k := by
    intro u k hk
    rw [← hfreed, TagSlots.get?_set] at hk
    split at hk
    · cases hk
    · exact hk
  obtain ⟨hclient, rfl, hle, rfl, rfl⟩ := h
  have hflight : inFlight? st.allSlots st.transcript tag = some t :=
    inFlight?_eq_some.mpr ⟨ticket, hslot, ht⟩
  rcases hclient with hrunning | hfinishing
  · rw [hrunning] at hresumes
    cases hresumes
  · generalize hpending : st.allSlots.pending = tags at hfinishing
    rw [hfinishing] at hresumes
    obtain ⟨d, hperform⟩ := houtcome
    cases outcome with
    | ok b =>
      cases hresumes with
      | @collected _ tags =>
        left
        have hcons := inFlight_eq_cons hpending hflight
        have hpending' := TagSlots.pending_set_none hpending
        have hok := Transfer.check_of_perform_ok hperform
        rw [hfreed] at hcons hpending'
        rw [hcons, rejections_cons_of_ok hok, behindRejected_cons_of_ok hok]
        exact ⟨.inr (congrArg (Client.finishing · next) hpending'.symm), List.append_nil _,
          fun u k hk => hle u k (hle' u k hk), rfl, rfl⟩
    | error cause =>
      cases hresumes with
      | @failed _ tags =>
        right
        have hcons := inFlight_eq_cons hpending hflight
        have hcheck := Transfer.check_of_perform_error hperform
        rw [hfreed] at hcons
        rw [hcons, rejections_cons_of_error hcheck, behindRejected_cons_of_error hcheck]
        exact ⟨rfl, rfl, hengine, rfl, fun u k hk => hle u k (hle' u k hk), rfl⟩

/-- Every step leads on to the reply. -/
theorem Step.finishes (hstep : Step w (st, data) (st', data')) (hfaithful : Faithful w d₀ st data)
    (h : st.Finishes w next xs slots reply rest) :
  st'.Finishes w next xs slots reply rest ∨ st'.HasFinished next xs slots reply rest
  := by
  obtain ⟨hsound, hbooks, -⟩ := hfaithful
  cases hstep with
  | quiet hwaiting hquiet => exact h.quiet hsound.held hwaiting hquiet
  | submit _ hclient =>
    rcases h.client_eq with heq | heq
    · cases hclient.symm.trans heq
    · cases hclient.symm.trans heq
  | block hwaiting _ hslot =>
    left
    exact h.congr rfl rfl (allSlots_of_blocked hwaiting hslot rfl rfl)
  | @receive _ _ tag ticket _ outcome _ _ hwaiting hchannel hreceive hclient =>
    obtain ⟨t, ht⟩ := hbooks.exists_ticketed (get?_allSlots hwaiting)
    have houtcome := hbooks.exists_perform hsound hwaiting hchannel hreceive ht
    exact h.receive hsound.held hwaiting ht houtcome hclient _
  | drop hclient =>
    rcases h.client_eq with heq | heq
    · cases hclient.symm.trans heq
    · cases hclient.symm.trans heq
  | _ => exact .inl (h.congr rfl rfl rfl)

/-- A client that is about to finish isn't blocked. -/
theorem Held.waiting_eq_none (h : st.Held) (hclient : st.client = .running (.call .finish next)) :
  st.waiting = none
  := by
  rw [Option.eq_none_iff_forall_ne_some]
  rintro ⟨tag, ticket⟩ hwaiting
  obtain ⟨-, hwaits, -⟩ := h.waits tag ticket hwaiting
  rw [hclient] at hwaits
  cases hwaits

/-- A client that finishes is not done. -/
theorem Finishes.exists_step (h : st.Finishes w next xs slots reply rest)
    (hsound : Sound w d₀ st data) :
  ∃ s, Step w (st, data) s
  := by
  rcases hsound.exists_step with hexited | hmoves
  · obtain ⟨hengine, -⟩ := hsound.connected.exited hexited
    obtain ⟨result, hdone⟩ := hsound.held.ended hengine
    rcases h.client_eq with heq | heq
    · cases hdone.symm.trans heq
    · cases hdone.symm.trans heq
  · exact hmoves

/-- A client that is about to finish comes to its reply. -/
theorem Faithful.eventually_finished (h : Faithful w d₀ st data)
    (hclient : st.client = .running (.call .finish next)) :
  Eventually (Step w)
    (fun s => Faithful w d₀ s.1 s.2 ∧
      s.1.HasFinished next st.transcript st.slots
        (finishReply (rejections w (inFlight st.slots st.transcript)))
        (behindRejected w (inFlight st.slots st.transcript)))
    (st, data)
  := by
  have hslots := allSlots_of_none (h.sound.held.waiting_eq_none hclient)
  have hbegins : st.Finishes w next st.transcript st.slots
      (finishReply (rejections w (inFlight st.slots st.transcript)))
      (behindRejected w (inFlight st.slots st.transcript)) := by
    refine ⟨.inl hclient, rfl, ?_, ?_, ?_⟩
    · rw [hslots]
      exact fun _ _ => id
    · rw [hslots]
    · rw [hslots]
  refine Eventually.of_acc
    (I := fun s => Faithful w d₀ s.1 s.2 ∧ s.1.Finishes w next st.transcript st.slots _ _)
    h.inevitably_exits.acc ?_ ?_ ⟨h, hbegins⟩
  · rintro ⟨s, d⟩ ⟨hfaithful, hfinishes⟩
    exact hfinishes.exists_step hfaithful.sound
  · rintro ⟨s, d⟩ ⟨s', d'⟩ ⟨hfaithful, hfinishes⟩ hstep
    have hfaithful' := (TimedStep.step hstep).faithful hfaithful
    rcases hstep.finishes hfaithful hfinishes with hfinishes' | hfinished
    · exact .inl ⟨hfaithful', hfinishes'⟩
    · exact .inr ⟨hfaithful', hfinished⟩

end Finish

end Wired

/-! ### Calls that finish, one after the other -/

/-- Finish as often as given, and go on with the replies. -/
def Session.finishTimes {α : Type} :
    Nat → (List (Except TransferError Unit) → Session α) → Session α
  | 0, next => next []
  | n + 1, next => .call .finish fun reply => finishTimes n fun replies => next (reply :: replies)

namespace Wired

variable {Channel α : Type} [OneShot Channel] {w : Window} {st st' : Wired Channel α}
variable {d₀ data data' : Data}

/-- The replies report the rejections one by one. -/
theorem Faithful.eventually_finishTimes (h : Faithful w d₀ st data) {n : Nat}
    {next : List (Except TransferError Unit) → Session α}
    (hclient : st.client = .running (.finishTimes n next)) :
  Eventually (Step w)
    (fun s =>
      s.1.client = .running
        (next (finishReplies n (rejections w (inFlight st.slots st.transcript)))) ∧
      s.1.transcript = st.transcript ++
        (finishReplies n (rejections w (inFlight st.slots st.transcript))).map (⟨.finish, ·⟩))
    (st, data)
  := by
  induction n generalizing st data next with
  | zero => exact .now ⟨hclient, (List.append_nil _).symm⟩
  | succ n ih =>
    apply (h.eventually_finished hclient).trans
    rintro ⟨s, d⟩ ⟨hfaithful, hfinished⟩
    apply (ih hfaithful hfinished.client_eq).mono
    intro s' hs'
    rw [hfinished.inFlight_eq, rejections_behindRejected, hfinished.transcript_eq,
      List.append_assoc] at hs'
    rw [finishReplies_succ]
    exact hs'

/-- A client has got its reply to a call that finishes. What is still in flight is in the slot where
it was before, and still to be collected. -/
structure Reports (w : Window) (d₀ : Data) (st : Wired Channel α)
    (next : Except TransferError Unit → Session α) (reply : Except TransferError Unit)
    (st' : Wired Channel α) : Prop where
  client_eq : st'.client = .running (next reply)
  waiting_eq : st'.waiting = none
  transcript_eq : st'.transcript = st.transcript ++ [⟨.finish, reply⟩]
  report : FinishReport w (inFlight st.slots st.transcript) reply fun u => st'.slots.isPending u
  same : ∀ tag ticket, st'.slots.get? tag = some ticket → st.slots.get? tag = some ticket
  promised : ∀ tag t, inFlight? st'.slots st'.transcript tag = some t → st'.Promises w d₀ tag t

theorem Faithful.reports {next : Except TransferError Unit → Session α}
    {reply : Except TransferError Unit} (h : Faithful w d₀ st' data')
    (hreply : finishReply (rejections w (inFlight st.slots st.transcript)) = reply)
    (hfinished : st'.HasFinished next st.transcript st.slots reply
      (behindRejected w (inFlight st.slots st.transcript))) :
  st.Reports w d₀ next reply st'
  where
  client_eq := hfinished.client_eq
  waiting_eq := hfinished.waiting_eq
  transcript_eq := hfinished.transcript_eq
  report := by
    rw [← hreply]
    apply FinishReport.of_sorted (pairwise_inFlight _ _)
    intro u
    rw [h.books.isPending_iff hfinished.waiting_eq, hfinished.inFlight_eq]
  same := hfinished.slots_le
  promised _ _ ht := h.promises hfinished.engine_eq ht

end Wired

/-! ### The running engine -/

/-- What a call that finishes is answered, given what it waits for. -/
structure FirstRejected (w : Window) (held : List (Tag × Transfer))
    (reply : Except TransferError Unit) : Prop where
  of_ok : reply = .ok () → ∀ x ∈ held, x.2.check w = .ok ()
  of_error : ∀ cause, reply = .error cause → ∃ x ∈ held, x.2.check w = .error cause ∧
    ∀ y ∈ held, y.1.index < x.1.index → y.2.check w = .ok ()

theorem Transfer.check_of_isOk {w : Window} {t : Transfer} (h : (t.check w).isOk = true) :
  t.check w = .ok ()
  := by
  cases hcheck : t.check w with
  | ok => rfl
  | error cause =>
    rw [hcheck] at h
    cases h

/-- The first rejection leaves the transfers behind it. -/
theorem FirstRejected.report {w : Window} {held : List (Tag × Transfer)}
    {reply : Except TransferError Unit} (h : FirstRejected w held reply) {busy : Tag → Prop}
    (hbusy : ∀ u, busy u ↔ u ∈ (Exchange.leaves w held ⟨.finish, reply⟩).map Prod.fst) :
  FinishReport w held reply busy
  := by
  cases reply with
  | ok =>
    refine .ok (h.of_ok rfl) ?_
    intro u hu
    cases (hbusy u).mp hu
  | error cause =>
    obtain ⟨x, hx, hcheck, hfirst⟩ := h.of_error cause rfl
    refine .error hx hcheck hfirst ?_
    intro u
    rw [hbusy, Exchange.leaves,
      Exchange.leftBy_of_tag?_eq_none (Transfer.tag?_of_check_error hcheck)]
    simp only [List.mem_map, List.mem_filter, List.any_eq_true, Bool.and_eq_true,
      Bool.not_eq_true', decide_eq_true_eq]
    constructor
    · rintro ⟨y, ⟨hy, z, hz, hfailed, hlt⟩, rfl⟩
      refine ⟨?_, y, hy, rfl⟩
      -- Nothing in front of the first rejection is rejected.
      by_contra hge
      have hok := hfirst z hz (Fin.lt_of_lt_of_le hlt (Fin.not_lt.mp hge))
      rw [hok] at hfailed
      cases hfailed
    · rintro ⟨hlt, y, hy, rfl⟩
      refine ⟨y, ⟨hy, x, hx, ?_, hlt⟩, rfl⟩
      rw [hcheck]
      rfl

namespace Sequential

variable {s s' : Sequential} {w : Window} {held : List (Tag × Transfer)} {tags : List Tag}

/-- Waiting under one tag after the other ends at the first rejection. -/
theorem Owes.firstRejected {reply : Except TransferError Unit}
    (h : s.Owes w (held.filter fun x => x.1 ∈ tags)) (hfinishing : Finishing w tags held)
    (hwait : s.waitEach tags = (reply, s')) :
  FirstRejected w held reply
  := by
  induction tags generalizing s with
  | nil =>
    cases hwait
    constructor
    · intro _ x hx
      exact Transfer.check_of_isOk (hfinishing.past x hx List.not_mem_nil).1
    · intro cause hcause
      cases hcause
  | cons tag tags ih =>
    rw [Sequential.waitEach] at hwait
    split at hwait
    · rename_i cause s₁ hfailed
      cases hwait
      rw [wait_eq] at hfailed
      cases hslot : s.slots.get? tag with
      | none =>
        rw [hslot] at hfailed
        cases hfailed
      | some outcome =>
        obtain ⟨t, hmem, d, hperform⟩ := h.kept.taken tag outcome hslot
        rw [hslot] at hfailed
        cases outcome with
        | ok b => cases hfailed
        | error cause' =>
          cases hfailed
          obtain ⟨hheld, -⟩ := List.mem_filter.mp hmem
          constructor
          · intro hok
            cases hok
          · intro cause hcause
            cases hcause
            refine ⟨(tag, t), hheld, Transfer.check_of_perform_error hperform, ?_⟩
            intro y hy hlt
            apply Transfer.check_of_isOk
            refine (hfinishing.past y hy ?_).1
            intro htag
            rcases List.mem_cons.mp htag with heq | htag
            · rw [heq] at hlt
              exact Fin.lt_irrefl _ hlt
            · exact Fin.lt_asymm hlt ((List.pairwise_cons.mp hfinishing.sorted).1 _ htag)
    · rename_i b s₁ hcollected
      obtain ⟨hdue, howes⟩ := h.wait hcollected
      rw [hfinishing.filter_tail] at howes
      exact ih howes (hfinishing.collected hdue) hwait

end Sequential

/-- In every state that a session reaches on a threaded engine, a call that finishes reports the
first rejection among the transfers that have not been collected. -/
theorem Session.Reaches.finishReport {α : Type} {w : Window} {session rest : Session α}
    {data d : Data} {xs : List Exchange} {e : Threaded}
    (h : session.Reaches (Threaded.new w) data xs rest e d) :
  FinishReport w (uncollected w xs) (e.finish d).1 fun u => (e.finish d).2.1.slots.isPending u
  := by
  obtain ⟨-, s, d₁, hahead, howes⟩ := h.allDue (Threaded.keepsBooks w)
    ⟨.new w, data, .new w data, rfl, .empty _⟩
  obtain ⟨hfinishing, hpending⟩ := Finishing.of_kept (w := w) howes.kept
  obtain ⟨reply, s', e', d', hwait, hfinish, hahead'⟩ := hahead.waitEach s.slots.pending
  have howes' : s.Owes w ((uncollected w xs).filter fun x => x.1 ∈ s.slots.pending) := by
    rw [hpending]
    exact howes
  have hfinish : e.finish d = (reply, e', d') := by
    rw [Threaded.finish, ← hahead.pending_eq]
    exact hfinish
  rw [hfinish]
  apply (howes'.firstRejected hfinishing hwait).report
  intro u
  have hkept := (howes'.waitEach hfinishing hwait).kept
  rw [← hahead'.isPending_eq, ← TagSlots.mem_pending]
  exact hkept.mem_pending_iff

/-! ### The reports -/

/-- Wherever a client and its worker have got to, whatever has been rejected, and however they take
their steps from there: a call that finishes comes to the reply that reports the first rejection in
flight, and leaves in flight what is behind it. Calls that finish, one after the other, report all
rejections in the order of their tags, and from then on none. The worker exits, and whenever it has,
it has carried out every accepted transfer once and in order. On the running engine, a call that
finishes reports the same. -/
theorem Session.finish_reports_rejections (Channel : Type) [OneShot Channel] {α : Type}
    {w : Window} {session : Session α} {data : Data} (hfits : w.Fits data.size) :
  (∀ (st : Wired Channel α) (d : Data),
      Relation.ReflTransGen (Wired.TimedStep w) (.start session, data) (st, d) →
      (∀ next, st.client = .running (.call .finish next) →
        (∀ u, st.slots.isPending u ↔ u ∈ (inFlight st.slots st.transcript).map Prod.fst) ∧
        Eventually (Wired.Step w) (fun s => ∃ reply, st.Reports w data next reply s.1) (st, d)) ∧
      (∀ n next, st.client = .running (finishTimes n next) →
        Eventually (Wired.Step w)
          (fun s =>
            s.1.client = .running
              (next (finishReplies n (rejections w (inFlight st.slots st.transcript)))) ∧
            s.1.transcript = st.transcript ++
              (finishReplies n (rejections w (inFlight st.slots st.transcript))).map (⟨.finish, ·⟩))
          (st, d)) ∧
      (st.worker = .exited → st.Stored w data d) ∧
      Inevitably (Wired.Step w) (fun s => s.1.worker = .exited ∧ s.1.Stored w data s.2) (st, d))
    ∧ ∀ xs rest e d, session.Reaches (Threaded.new w) data xs rest e d →
      FinishReport w (uncollected w xs) (e.finish d).1 fun u => (e.finish d).2.1.slots.isPending u
  := by
  refine ⟨?_, fun xs rest e d h => h.finishReport⟩
  intro st d hst
  have hfaithful := Wired.faithful_of_reachable hfits hst
  refine ⟨?_, ?_, hfaithful.sound.stored, ?_⟩
  · intro next hclient
    constructor
    · intro u
      exact hfaithful.books.isPending_iff (hfaithful.sound.held.waiting_eq_none hclient)
    · apply (hfaithful.eventually_finished hclient).mono
      rintro s ⟨hfaithful', hfinished⟩
      exact ⟨_, hfaithful'.reports rfl hfinished⟩
  · intro n next hclient
    exact hfaithful.eventually_finishTimes hclient
  · apply hfaithful.inevitably_exits.mono
    rintro s ⟨hsound, hexited⟩
    exact ⟨hexited, hsound.stored hexited⟩

/-- Begin the given transfers, whatever the replies, and go on. -/
def Session.beginAll {α : Type} : List (Tag × Transfer) → Session α → Session α
  | [], next => next
  | x :: begins, next => .call (.submit x.1 x.2) fun _ => beginAll begins next

/-- Two of three transfers are rejected. The first two of three calls that finish say so, and the
third one goes well. A client that finishes once and then ends leaves two transfers to the worker,
which stores the record nevertheless. -/
theorem Session.finish_reports_rejections_two_of_three :
  ∃ (w : Window) (data : Data) (missing stored outside : Transfer) (begins : List (Tag × Transfer))
      (begun : List Exchange),
    w = ⟨⟨0, 2⟩, 1, 2⟩ ∧ data = #[Lanes.zero, Lanes.zero] ∧
    missing = .get 5 ⟨0, 1⟩ ⟨.staged 0, #[Lanes.zero]⟩ ∧
    stored = .put ⟨0, 1⟩ ⟨.out, #[Lanes.splat 2.5]⟩ ∧
    outside = .put ⟨1, 3⟩ ⟨.out, #[Lanes.splat 1.5, Lanes.splat 1.5]⟩ ∧
    begins = [(⟨1⟩, missing), (⟨2⟩, stored), (⟨3⟩, outside)] ∧
    begun = begins.map (fun x => ⟨.submit x.1 x.2, .ok ()⟩) ∧ w.Fits data.size ∧
    (∃ st : Wired PlainChannel _, Relation.ReflTransGen (Wired.TimedStep w)
        (.start (beginAll begins (finishTimes 3 .done)), data) (st, data) ∧
      st.client = .running (finishTimes 3 .done) ∧ st.transcript = begun ∧
      Eventually (Wired.Step w)
        (fun s => ∃ next reply, reply ≠ .ok () ∧ st.Reports w data next reply s.1) (st, data) ∧
      Eventually (Wired.Step w)
        (fun s => s.1.client = .running (.done [.error (.unknownArray 5),
          .error (.outOfRange ⟨1, 3⟩ ⟨0, 2⟩), .ok ()])) (st, data)) ∧
    ∃ st : Wired PlainChannel _, Relation.ReflTransGen (Wired.TimedStep w)
        (.start (beginAll begins (finishTimes 1 .done)), data)
        (st, #[Lanes.splat 2.5, Lanes.zero]) ∧
      st.worker = .exited ∧ st.transcript = begun ++ [⟨.finish, .error (.unknownArray 5)⟩] ∧
      st.Stored w data #[Lanes.splat 2.5, Lanes.zero]
  := by
  have hfits : Window.Fits ⟨⟨0, 2⟩, 1, 2⟩ (#[Lanes.zero, Lanes.zero] : Data).size := by
    constructor <;> decide
  have hidle : ¬ CopyWorker.IsGone .idle := by
    rintro (h | h) <;> cases h
  refine ⟨⟨⟨0, 2⟩, 1, 2⟩, #[Lanes.zero, Lanes.zero], .get 5 ⟨0, 1⟩ ⟨.staged 0, #[Lanes.zero]⟩,
    .put ⟨0, 1⟩ ⟨.out, #[Lanes.splat 2.5]⟩,
    .put ⟨1, 3⟩ ⟨.out, #[Lanes.splat 1.5, Lanes.splat 1.5]⟩, _, _, rfl, rfl, rfl, rfl, rfl, rfl,
    rfl, hfits, ?_, ?_⟩
  · obtain ⟨st, hst, hclient, htranscript, hmissing, hrejections⟩ : ∃ st : Wired PlainChannel _,
        Relation.ReflTransGen (Wired.TimedStep ⟨⟨0, 2⟩, 1, 2⟩)
          (.start (beginAll [(⟨1⟩, .get 5 ⟨0, 1⟩ ⟨.staged 0, #[Lanes.zero]⟩),
              (⟨2⟩, .put ⟨0, 1⟩ ⟨.out, #[Lanes.splat 2.5]⟩),
              (⟨3⟩, .put ⟨1, 3⟩ ⟨.out, #[Lanes.splat 1.5, Lanes.splat 1.5]⟩)]
            (finishTimes 3 .done)), #[Lanes.zero, Lanes.zero]) (st, #[Lanes.zero, Lanes.zero]) ∧
        st.client = .running (finishTimes 3 .done) ∧
        st.transcript = [⟨.submit ⟨1⟩ (.get 5 ⟨0, 1⟩ ⟨.staged 0, #[Lanes.zero]⟩), .ok ()⟩,
          ⟨.submit ⟨2⟩ (.put ⟨0, 1⟩ ⟨.out, #[Lanes.splat 2.5]⟩), .ok ()⟩,
          ⟨.submit ⟨3⟩ (.put ⟨1, 3⟩ ⟨.out, #[Lanes.splat 1.5, Lanes.splat 1.5]⟩), .ok ()⟩] ∧
        (⟨1⟩, .get 5 ⟨0, 1⟩ ⟨.staged 0, #[Lanes.zero]⟩) ∈ inFlight st.slots st.transcript ∧
        rejections ⟨⟨0, 2⟩, 1, 2⟩ (inFlight st.slots st.transcript)
          = [.unknownArray 5, .outOfRange ⟨1, 3⟩ ⟨0, 2⟩] :=
      ⟨_, .tail (.tail (.tail .refl (.step (.submit rfl rfl rfl hidle)))
        (.step (.submit rfl rfl rfl hidle))) (.step (.submit rfl rfl rfl hidle)), rfl, rfl, .head _,
        rfl⟩
    obtain ⟨hreports, -⟩ := finish_reports_rejections PlainChannel hfits
    obtain ⟨hreport, hreplies, -⟩ := hreports st _ hst
    obtain ⟨-, hfinished⟩ := hreport _ hclient
    refine ⟨st, hst, hclient, htranscript, hfinished.mono ?_, (hreplies 3 _ hclient).mono ?_⟩
    · rintro s ⟨reply, hs⟩
      refine ⟨_, reply, ?_, hs⟩
      intro hok
      cases hs.report.ok_iff.mp hok _ hmissing
    · intro s hs
      rw [hrejections] at hs
      exact hs.1
  · have hbounds : ∀ t : Transfer, t.check ⟨⟨0, 2⟩, 1, 2⟩ = .ok () → t.InBounds ⟨⟨0, 2⟩, 1, 2⟩ 2 :=
      fun _ => Transfer.inBounds_of_check hfits
    have hbegun := (((Relation.ReflTransGen.refl (r := Wired.TimedStep ⟨⟨0, 2⟩, 1, 2⟩)
      (a := ((Wired.start (beginAll [(⟨1⟩, .get 5 ⟨0, 1⟩ ⟨.staged 0, #[Lanes.zero]⟩),
          (⟨2⟩, .put ⟨0, 1⟩ ⟨.out, #[Lanes.splat 2.5]⟩),
          (⟨3⟩, .put ⟨1, 3⟩ ⟨.out, #[Lanes.splat 1.5, Lanes.splat 1.5]⟩)]
        (finishTimes 1 .done)) : Wired PlainChannel _), #[Lanes.zero, Lanes.zero]))).tail
      (.step (.submit rfl rfl rfl hidle))).tail
      (.step (.submit rfl rfl rfl hidle))).tail (.step (.submit rfl rfl rfl hidle))
    -- The client waits for the first transfer only.
    have hfailed := ((((((hbegun.tail (.step (.quiet rfl .finish))).tail
      (.step (.block rfl .finish rfl))).tail (.step (.take rfl rfl))).tail
      (.step (.copy rfl (hbounds _) rfl))).tail (.step (.announce rfl rfl rfl))).tail
      (.step (.receive rfl rfl rfl .failed))).tail (.step (.drop rfl rfl))
    have hstored := ((hfailed.tail (.step (.take rfl rfl))).tail
      (.step (.copy rfl (hbounds _) rfl))).tail (.step (.announce rfl rfl rfl))
    have hserved := ((hstored.tail (.step (.take rfl rfl))).tail
      (.step (.copy rfl (hbounds _) rfl))).tail (.step (.announce rfl rfl rfl))
    have hst := hserved.tail (.step (.exit rfl rfl rfl))
    obtain ⟨hreports, -⟩ := finish_reports_rejections PlainChannel hfits
    obtain ⟨-, -, hstores, -⟩ := hreports _ _ hst
    exact ⟨_, hst, rfl, rfl, hstores rfl⟩

end ReplicaSum
