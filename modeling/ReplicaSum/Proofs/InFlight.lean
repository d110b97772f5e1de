import ReplicaSum.Engine.Immediate
import ReplicaSum.Proofs.Course
import ReplicaSum.Proofs.Footprint

/-!
# Transfers in flight

A transfer is in flight from the call that begins it to the call that collects it. An immediate
engine has no need to know which transfers these are; `Tracked` is an immediate engine that writes
them down. A call is safe if it begins only a transfer that passes its check and that is
compatible with everything in flight. Of a session that makes only safe calls, no answer depends
on when the transfers are carried out.
-/

namespace ReplicaSum

namespace Immediate

variable {engine : Immediate} {tag : Tag} {t : Transfer} {cause : TransferError}

/-- A transfer under a busy tag is refused. -/
theorem submit_of_isPending (h : engine.slots.isPending tag = true) (data : Data) :
  engine.submit tag t data = (.error (.tagBusy tag), engine, data)
  := by
  rw [submit, if_pos h]

/-- A transfer under a free tag that passes its check is carried out, and its buffer kept. -/
theorem submit_of_check_ok (h : engine.slots.get? tag = none) (ht : t.check engine.window = .ok ())
    (data : Data) :
  engine.submit tag t data
    = (.ok (),
        { engine with slots := engine.slots.set tag (some (t.filled engine.window data)) },
        t.stored engine.window data)
  := by
  rw [submit, if_neg (by simp [TagSlots.isPending, h]), Transfer.perform_of_check_ok ht]
  simp only [TagSlots.issue_eq_ok h]

/-- A transfer under a free tag that fails its check is refused. -/
theorem submit_of_check_error (h : engine.slots.get? tag = none)
    (ht : t.check engine.window = .error cause) (data : Data) :
  engine.submit tag t data = (.error cause, engine, data)
  := by
  rw [submit, if_neg (by simp [TagSlots.isPending, h]), Transfer.perform_of_check_error ht]

end Immediate

/-- A call is valid for a window if the transfer that it begins, if it begins one, passes its
check. -/
def Call.Valid (w : Window) : Call → Prop
  | .submit _ t => t.check w = .ok ()
  | .wait _ => True
  | .finish => True

/-- An immediate engine, with the transfers that were begun and not collected yet. -/
structure Tracked where
  engine : Immediate
  inFlight : TagSlots Transfer

namespace Tracked

/-- An engine with nothing in flight. -/
def new (w : Window) : Tracked := ⟨.new w, .empty⟩

/-- The window that is served. -/
def window (e : Tracked) : Window := e.engine.window

/-- The buffer kept under a tag. -/
def slot (e : Tracked) (tag : Tag) : Option Buffer := e.engine.slots.get? tag

/-- The transfer in flight under a tag. -/
def flight (e : Tracked) (tag : Tag) : Option Transfer := e.inFlight.get? tag

/-- The engine once a transfer has been begun. -/
def begun (e : Tracked) (tag : Tag) (t : Transfer) (data : Data) : Tracked where
  engine := { e.engine with slots := e.engine.slots.set tag (some (t.filled e.window data)) }
  inFlight := e.inFlight.set tag (some t)

/-- The engine once the transfer under a tag has been collected. -/
def freed (e : Tracked) (tag : Tag) : Tracked where
  engine := { e.engine with slots := e.engine.slots.set tag none }
  inFlight := e.inFlight.set tag none

instance : TransferEngine Tracked where
  answer
    | .submit tag t, e, data =>
      match e.engine.submit tag t data with
      | (.ok (), engine, data) => (.ok (), ⟨engine, e.inFlight.set tag (some t)⟩, data)
      | (.error cause, engine, data) => (.error cause, ⟨engine, e.inFlight⟩, data)
    | .wait tag, e, data =>
      match e.engine.wait tag with
      | (buffer, engine) => (.ok buffer, ⟨engine, e.inFlight.set tag none⟩, data)
    | .finish, e, data => (.ok (), ⟨e.engine.finish, .empty⟩, data)

/-- A call is safe if it begins no transfer, or one that passes its check and is compatible with
every transfer in flight. -/
def Safe : Call → Tracked → Data → Prop
  | .submit _ t, e, _ =>
    t.check e.window = .ok () ∧ ∀ tag u, e.flight tag = some u → Transfer.Compatible e.window u t
  | .wait _, _, _ => True
  | .finish, _, _ => True

variable {e : Tracked} {tag u : Tag} {t : Transfer} {data : Data}

@[simp]
theorem window_freed : (e.freed tag).window = e.window := rfl

@[simp]
theorem slot_begun :
  (e.begun tag t data).slot u = if tag = u then some (t.filled e.window data) else e.slot u
  := TagSlots.get?_set _ _ _ _

@[simp]
theorem flight_begun :
  (e.begun tag t data).flight u = if tag = u then some t else e.flight u
  := TagSlots.get?_set _ _ _ _

@[simp]
theorem slot_freed :
  (e.freed tag).slot u = if tag = u then none else e.slot u
  := TagSlots.get?_set _ _ _ _

@[simp]
theorem flight_freed :
  (e.freed tag).flight u = if tag = u then none else e.flight u
  := TagSlots.get?_set _ _ _ _

/-- Apart from the tags in `tags`, two engines hold the same. -/
structure SameOff (tags : Tag → Prop) (e e' : Tracked) : Prop where
  window_eq : e'.window = e.window
  slot_eq : ∀ u, ¬ tags u → e'.slot u = e.slot u
  flight_eq : ∀ u, ¬ tags u → e'.flight u = e.flight u

namespace SameOff

variable {tags tags' : Tag → Prop} {e₁ e₂ : Tracked}

theorem refl (tags : Tag → Prop) (e : Tracked) : SameOff tags e e :=
  ⟨rfl, fun _ _ => rfl, fun _ _ => rfl⟩

theorem trans (h : SameOff tags e e₁) (h' : SameOff tags e₁ e₂) : SameOff tags e e₂ :=
  ⟨h'.window_eq.trans h.window_eq, fun u hu => (h'.slot_eq u hu).trans (h.slot_eq u hu),
    fun u hu => (h'.flight_eq u hu).trans (h.flight_eq u hu)⟩

theorem mono (h : SameOff tags e e₁) (htags : ∀ u, tags u → tags' u) : SameOff tags' e e₁ :=
  ⟨h.window_eq, fun u hu => h.slot_eq u (mt (htags u) hu),
    fun u hu => h.flight_eq u (mt (htags u) hu)⟩

theorem begun (htag : tags tag) : SameOff tags e (e.begun tag t data) where
  window_eq := rfl
  slot_eq u hu := by
    rw [slot_begun, if_neg]
    rintro rfl
    apply hu htag
  flight_eq u hu := by
    rw [flight_begun, if_neg]
    rintro rfl
    apply hu htag

theorem freed (htag : tags tag) : SameOff tags e (e.freed tag) where
  window_eq := rfl
  slot_eq u hu := by
    rw [slot_freed, if_neg]
    rintro rfl
    apply hu htag
  flight_eq u hu := by
    rw [flight_freed, if_neg]
    rintro rfl
    apply hu htag

end SameOff

/-! ### Calls -/

theorem answer_submit_ok (h : e.slot tag = none) (ht : t.check e.window = .ok ()) (data : Data) :
  TransferEngine.answer (.submit tag t) e data
    = ((.ok () : Except TransferError Unit), e.begun tag t data, t.stored e.window data)
  := by
  simp only [TransferEngine.answer, Immediate.submit_of_check_ok h ht]
  rfl

theorem answer_submit_busy (h : e.slot tag ≠ none) (data : Data) :
  TransferEngine.answer (.submit tag t) e data
    = ((.error (.tagBusy tag) : Except TransferError Unit), e, data)
  := by
  have hbusy : e.engine.slots.isPending tag = true := Option.isSome_iff_ne_none.mpr h
  simp only [TransferEngine.answer, Immediate.submit_of_isPending hbusy]

/-- A transfer that may be begun is begun. -/
theorem runs_submit (h : e.slot tag = none) (ht : t.check e.window = .ok ())
    (hsafe : ∀ tag' u, e.flight tag' = some u → Transfer.Compatible e.window u t) (data : Data) :
  RankM.Runs Safe (RankM.ask (Session.request (.submit tag t))) e data (.ok ())
    (e.begun tag t data) (t.stored e.window data)
  := by
  apply RankM.Runs.ask
  · apply answer_submit_ok h ht data
  · exact ⟨⟨ht, hsafe⟩, trivial⟩

/-- A transfer that fails its check is refused, and everything stays as it is. -/
theorem runs_submit_error {cause : TransferError} (h : e.slot tag = none)
    (ht : t.check e.window = .error cause) (data : Data) :
  RankM.Runs Call.Any (RankM.ask (Session.request (.submit tag t))) e data
    (.error (.error (.transfer cause))) e data
  := by
  apply RankM.Runs.ask_error
  · simp only [Session.request, Session.run, TransferEngine.answer,
      Immediate.submit_of_check_error h ht]
  · exact ⟨trivial, trivial⟩

/-- Waiting hands out what is kept under the tag. -/
theorem runs_wait (e : Tracked) (tag : Tag) (data : Data) :
  RankM.Runs Safe (RankM.wait tag) e data (.ok (e.slot tag)) (e.freed tag) data
  := by
  apply RankM.Runs.ask
  · rfl
  · exact ⟨trivial, trivial⟩

/-- Finishing leaves nothing in flight. -/
theorem runs_finish (e : Tracked) (data : Data) :
  RankM.Runs Safe RankM.finish e data (.ok ()) (new e.window) data
  := by
  apply RankM.Runs.ask
  · rfl
  · exact ⟨trivial, trivial⟩

/-! ### Tracking changes nothing -/

/-- Whatever a program calls, it ends on the immediate engine alone as it does on the tracked
one. -/
theorem runs_engine {α : Type} {m : RankM α} {outcome : Except (Failure RankError) α}
    {e' : Tracked} {data' : Data} (h : RankM.Runs Call.Any m e data outcome e' data') :
  RankM.Runs Call.Any m e.engine data outcome e'.engine data'
  := by
  have hlock := Session.lockstep
    (R := fun e₁ data₁ engine data₂ => e₁.engine = engine ∧ data₁ = data₂)
    (P := Call.Any) (Q := Call.Any) ?_ m.run ⟨rfl, rfl⟩ h.along
  · obtain ⟨halong, -, result, e₁, data₁, _, _, hrun, hrun', rfl, rfl⟩ := hlock
    obtain ⟨rfl, rfl, rfl⟩ : result = outcome ∧ e₁ = e' ∧ data₁ = data' := by
      simpa [hrun] using h.run_eq
    exact ⟨hrun', halong⟩
  · rintro request e₁ data₁ _ _ ⟨rfl, rfl⟩ -
    use trivial
    cases request with
    | submit tag t =>
      cases hsubmit : e₁.engine.submit tag t data₁ with
      | mk reply rest =>
        obtain ⟨engine, data₂⟩ := rest
        cases reply with
        | error cause =>
          use .error cause, ⟨engine, e₁.inFlight⟩, data₂, engine, data₂
          simp only [TransferEngine.answer, hsubmit, and_self]
        | ok =>
          use .ok (), ⟨engine, e₁.inFlight.set tag (some t)⟩, data₂, engine, data₂
          simp only [TransferEngine.answer, hsubmit, and_self]
    | wait tag => exact ⟨_, _, _, _, _, rfl, rfl, rfl, rfl⟩
    | finish => exact ⟨_, _, _, _, _, rfl, rfl, rfl, rfl⟩

/-- A safe call is answered by the immediate engine alone as it is by the tracked one. -/
theorem answer_engine {request : Call} (h : Safe request e data) :
  ∃ reply e₁ data₁,
    TransferEngine.answer request e data = (reply, e₁, data₁) ∧
    TransferEngine.answer request e.engine data = (reply, e₁.engine, data₁) ∧
    e₁.window = e.window
  := by
  cases request with
  | submit tag t =>
    by_cases hslot : e.slot tag = none
    · use .ok (), e.begun tag t data, t.stored e.window data
      exact ⟨answer_submit_ok hslot h.1 data, Immediate.submit_of_check_ok hslot h.1 data, rfl⟩
    · use .error (.tagBusy tag), e, data
      have hbusy : e.engine.slots.isPending tag = true := Option.isSome_iff_ne_none.mpr hslot
      exact ⟨answer_submit_busy hslot data, Immediate.submit_of_isPending hbusy data, rfl⟩
  | wait tag =>
    use .ok (e.slot tag), e.freed tag, data
    exact ⟨rfl, rfl, rfl⟩
  | finish =>
    use .ok (), new e.window, data
    exact ⟨rfl, rfl, rfl⟩

/-- A session that makes only safe calls runs on the immediate engine alone as it does on the
tracked one, and all transfers that it begins pass their checks. -/
theorem run_engine {α : Type} {s : Session α} (h : s.Along Safe e data) :
  s.Along (fun request _ _ => request.Valid e.window) e.engine data
    ∧ ∃ result e₁ data₁,
        s.run e data = (result, e₁, data₁) ∧ s.run e.engine data = (result, e₁.engine, data₁)
  := by
  have hstart : e.engine = e.engine ∧ data = data ∧ e.window = e.window := ⟨rfl, rfl, rfl⟩
  have hlock := Session.lockstep
    (R := fun e₁ data₁ engine data₂ => e₁.engine = engine ∧ data₁ = data₂ ∧ e₁.window = e.window)
    (P := Safe) (Q := fun request _ _ => request.Valid e.window) ?_ s hstart h
  · obtain ⟨hvalid, -, result, e₁, data₁, _, _, hrun, hrun', rfl, rfl, -⟩ := hlock
    exact ⟨hvalid, result, e₁, data₁, hrun, hrun'⟩
  · rintro request e₁ data₁ _ _ ⟨rfl, rfl, hw⟩ hsafe
    obtain ⟨reply, e₂, data₂, hans, hans', hw'⟩ := answer_engine hsafe
    constructor
    · cases request with
      | submit tag t =>
        rw [← hw]
        apply hsafe.1
      | wait => trivial
      | finish => trivial
    · use reply, e₂, data₂, e₂.engine, data₂
      exact ⟨hans, hans', rfl, rfl, hw'.trans hw⟩

end Tracked

end ReplicaSum
