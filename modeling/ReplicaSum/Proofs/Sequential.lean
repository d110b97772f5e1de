import ReplicaSum.Proofs.InFlight
import ReplicaSum.Proofs.Queue

/-!
# The sequential engine

A transfer engine that carries out a transfer when it is begun, like the immediate engine, but says
how it went only to the call that collects it, like the threaded one. `Ahead` says that a sequential
engine is where a threaded engine will be once its worker has served the queue; whatever the worker
and the client do keeps it so. While every transfer passes its check, a sequential engine is an
immediate one.
-/

namespace ReplicaSum

/-- The state of a sequential engine: the window it serves, and how the transfers went that nobody
has waited for yet. -/
structure Sequential where
  window : Window
  slots : TagSlots (Except TransferError Buffer)

namespace Sequential

/-- An engine with nothing in flight. -/
def new (w : Window) : Sequential := ⟨w, .empty⟩

/-- Carry out a transfer under a free tag, and keep how it went. -/
def submit (engine : Sequential) (tag : Tag) (t : Transfer) (data : Data) :
    Except TransferError Unit × Sequential × Data :=
  if engine.slots.isPending tag then (.error (.tagBusy tag), engine, data)
  else
    match t.perform engine.window data with
    | (outcome, data) =>
      (.ok (), { engine with slots := engine.slots.set tag (some outcome) }, data)

/-- Say how the transfer under a tag went, and free the tag. -/
def wait (engine : Sequential) (tag : Tag) : Except TransferError (Option Buffer) × Sequential :=
  match engine.slots.take tag with
  | (none, slots) => (.ok none, { engine with slots })
  | (some outcome, slots) => (outcome.map some, { engine with slots })

/-- Wait under each of the given tags, up to the first one whose transfer failed. -/
def waitEach : List Tag → Sequential → Except TransferError Unit × Sequential
  | [], engine => (.ok (), engine)
  | tag :: tags, engine =>
    match engine.wait tag with
    | (.error cause, engine) => (.error cause, engine)
    | (.ok _, engine) => waitEach tags engine

/-- Wait for the transfers in flight, in increasing order of their tags. -/
def finish (engine : Sequential) : Except TransferError Unit × Sequential :=
  waitEach engine.slots.pending engine

instance : TransferEngine Sequential where
  answer
    | .submit tag t, engine, data => engine.submit tag t data
    | .wait tag, engine, data =>
      match engine.wait tag with
      | (reply, engine) => (reply, engine, data)
    | .finish, engine, data =>
      match engine.finish with
      | (reply, engine) => (reply, engine, data)

end Sequential

/-! ### Ahead of the worker -/

/-- The sequential engine `s`, with the data `d`, is where the threaded engine `e` of a patient
client will be once its worker has served the queue. -/
structure Ahead (e : Threaded) (data : Data) (s : Sequential) (d : Data) : Prop where
  patient : e.pacing.Patient
  window_eq : s.window = e.window
  data_eq : (e.close data).2 = d
  free : ∀ tag, e.slots.get? tag = none → s.slots.get? tag = none
  taken : ∀ tag ticket, e.slots.get? tag = some ticket → ∃ outcome,
    (e.close data).1.served[ticket]? = some outcome ∧ s.slots.get? tag = some outcome

namespace Ahead

variable {e : Threaded} {data : Data} {s : Sequential} {d : Data} {tag : Tag} {t : Transfer}
variable {ticket : Nat}

/-- A worker with an empty queue is not behind. -/
theorem of_idle (hpatient : e.pacing.Patient) (hslots : e.slots = .empty) (hqueue : e.queue = [])
    (data : Data) :
  Ahead e data (.new e.window) data
  := by
  constructor
  · exact hpatient
  · rfl
  · rw [Threaded.close_of_queue_nil hqueue]
  · intro tag _
    apply TagSlots.get?_empty tag
  · intro tag ticket h
    rw [hslots, TagSlots.get?_empty] at h
    cases h

theorem paced (w : Window) {pacing : Pacing} (h : pacing.Patient) (data : Data) :
  Ahead (.paced w pacing) data (.new w) data
  := of_idle h rfl rfl data

theorem new (w : Window) (data : Data) :
  Ahead (.new w) data (.new w) data
  := paced w (Pacing.patient_of_none _) data

/-- Every ticket belongs to a transfer that was submitted. -/
theorem ticket_lt (h : Ahead e data s d) (hslot : e.slots.get? tag = some ticket) :
  ticket < e.served.size + e.queue.length
  := by
  obtain ⟨outcome, houtcome, -⟩ := h.taken tag ticket hslot
  obtain ⟨hlt, -⟩ := Array.getElem?_eq_some_iff.mp houtcome
  rw [Threaded.size_served_close] at hlt
  apply hlt

/-- A worker that has served its queue doesn't lag behind. -/
theorem lag_eq_zero (h : Ahead e data s d) (hqueue : e.queue = []) (tag : Tag) :
  e.lag tag = 0
  := by
  rw [Threaded.lag]
  cases hslot : e.slots.get? tag with
  | none => rfl
  | some ticket =>
    have hlt := h.ticket_lt hslot
    rw [hqueue, List.length_nil] at hlt
    exact Nat.sub_eq_zero_of_le hlt

theorem isPending_eq (h : Ahead e data s d) (tag : Tag) :
  s.slots.isPending tag = e.slots.isPending tag
  := by
  rw [TagSlots.isPending, TagSlots.isPending]
  cases hslot : e.slots.get? tag with
  | none =>
    rw [h.free tag hslot]
    rfl
  | some ticket =>
    obtain ⟨outcome, -, houtcome⟩ := h.taken tag ticket hslot
    rw [houtcome]
    rfl

theorem pending_eq (h : Ahead e data s d) :
  s.slots.pending = e.slots.pending
  := by
  apply List.filter_congr
  intro tag _
  apply h.isPending_eq tag

/-- The worker takes a step. -/
theorem serve (h : Ahead e data s d) :
  Ahead (e.serve data).1 (e.serve data).2 s d
  where
  patient := by
    rw [Threaded.pacing_serve]
    apply h.patient
  window_eq := by rw [Threaded.window_serve, h.window_eq]
  data_eq := by rw [Threaded.close_serve, h.data_eq]
  free tag := by
    rw [Threaded.slots_serve]
    apply h.free tag
  taken tag ticket := by
    rw [Threaded.slots_serve, Threaded.close_serve]
    apply h.taken tag ticket

theorem serveMany (h : Ahead e data s d) (k : Nat) :
  Ahead (e.serveMany k data).1 (e.serveMany k data).2 s d
  := by
  induction k generalizing e data with
  | zero => exact h
  | succ k ih => exact ih h.serve

/-- The client submits a transfer. -/
theorem submit (h : Ahead e data s d) (tag : Tag) (t : Transfer) :
  ∃ s' d', s.submit tag t d = ((e.submit tag t).1, s', d') ∧ Ahead (e.submit tag t).2 data s' d'
  := by
  by_cases hbusy : e.slots.isPending tag = true
  · rw [Threaded.submit_of_isPending hbusy]
    use s, d
    constructor
    · rw [Sequential.submit, h.isPending_eq, if_pos hbusy]
    · apply h
  · have hslot : e.slots.get? tag = none := Option.not_isSome_iff_eq_none.mp hbusy
    rw [Threaded.submit_of_free hslot]
    use { s with slots := s.slots.set tag (some (t.perform s.window d).1) },
      (t.perform s.window d).2
    constructor
    · rw [Sequential.submit, h.isPending_eq, if_neg hbusy]
    · constructor
      · apply h.patient
      · apply h.window_eq
      · rw [Threaded.close_submitted, h.data_eq, h.window_eq]
      · intro tag' hfree
        rw [TagSlots.get?_set] at hfree ⊢
        split at hfree
        · cases hfree
        · rename_i hne
          rw [if_neg hne]
          apply h.free tag' hfree
      · intro tag' ticket hticket
        rw [Threaded.close_submitted, h.data_eq, ← h.window_eq]
        rw [TagSlots.get?_set] at hticket ⊢
        split at hticket
        · rename_i heq
          cases hticket
          use (t.perform s.window d).1
          constructor
          · rw [← Threaded.size_served_close e data, Array.getElem?_push_size]
          · rw [if_pos heq]
        · rename_i hne
          obtain ⟨outcome, hserved, houtcome⟩ := h.taken tag' ticket hticket
          obtain ⟨hlt, -⟩ := Array.getElem?_eq_some_iff.mp hserved
          use outcome
          constructor
          · rw [Array.getElem?_push_lt hlt, ← hserved, Array.getElem?_eq_getElem hlt]
          · rw [if_neg hne, houtcome]

/-- The client collects a transfer that the worker has served, or finds nothing in flight. -/
theorem collect (h : Ahead e data s d) (hlag : e.lag tag = 0) :
  ∃ s', s.wait tag = ((e.collect tag).1, s') ∧ Ahead (e.collect tag).2 data s' d
  := by
  cases hslot : e.slots.get? tag with
  | none =>
    rw [Threaded.collect_of_free hslot]
    use s
    constructor
    · have hfree := h.free tag hslot
      rw [Sequential.wait, TagSlots.take, hfree, TagSlots.set_none hfree]
    · apply h
  | some ticket =>
    obtain ⟨outcome, hserved, houtcome⟩ := h.taken tag ticket hslot
    have hlt := Threaded.lt_of_lag_eq_zero hslot hlag
    have hannounced : e.served[ticket]? = some outcome := by
      rw [← hserved, Array.getElem?_eq_getElem hlt]
      symm
      apply Threaded.served_serveMany
      apply Array.getElem?_eq_getElem hlt
    rw [Threaded.collect_of_served hslot hannounced]
    use { s with slots := s.slots.set tag none }
    constructor
    · rw [Sequential.wait, TagSlots.take, houtcome]
    · constructor
      · apply h.patient
      · apply h.window_eq
      · rw [Threaded.close_slots, h.data_eq]
      · intro tag' hfree
        rw [TagSlots.get?_set] at hfree ⊢
        split
        · rfl
        · rename_i hne
          rw [if_neg hne] at hfree
          apply h.free tag' hfree
      · intro tag' ticket' hticket
        rw [Threaded.close_slots]
        rw [TagSlots.get?_set] at hticket ⊢
        split at hticket
        · cases hticket
        · rename_i hne
          rw [if_neg hne]
          apply h.taken tag' ticket' hticket

/-- The worker catches up, and the client collects. -/
theorem wait (h : Ahead e data s d) (tag : Tag) :
  ∃ reply s' e' data', s.wait tag = (reply, s') ∧ e.wait tag data = (reply, e', data') ∧
    Ahead e' data' s' d
  := by
  have hcaught := h.serveMany (e.lag tag)
  have hlag : (e.serveMany (e.lag tag) data).1.lag tag = 0 := by
    apply Threaded.lag_serveMany
    intro ticket hslot
    apply h.ticket_lt hslot
  obtain ⟨s', hwait, hcollected⟩ := hcaught.collect hlag
  use ((e.serveMany (e.lag tag) data).1.collect tag).1, s',
    ((e.serveMany (e.lag tag) data).1.collect tag).2, (e.serveMany (e.lag tag) data).2, hwait
  constructor
  · apply Threaded.wait_of_patient h.patient
  · apply hcollected

theorem waitEach (tags : List Tag) (h : Ahead e data s d) :
  ∃ reply s' e' data', Sequential.waitEach tags s = (reply, s') ∧
    Threaded.waitEach tags e data = (reply, e', data') ∧ Ahead e' data' s' d
  := by
  induction tags generalizing e data s with
  | nil => exact ⟨.ok (), s, e, data, rfl, rfl, h⟩
  | cons tag tags ih =>
    obtain ⟨reply, s₁, e₁, data₁, hwait, hwait', h₁⟩ := h.wait tag
    cases reply with
    | error cause =>
      use .error cause, s₁, e₁, data₁
      rw [Sequential.waitEach, hwait, Threaded.waitEach, hwait']
      exact ⟨rfl, rfl, h₁⟩
    | ok buffer =>
      rw [Sequential.waitEach, hwait, Threaded.waitEach, hwait']
      apply ih h₁

/-- The threaded engine, with a worker that is as late as can be, answers a call like the sequential
one. -/
theorem answer (h : Ahead e data s d) (request : Call) :
  ∃ reply s' d' e' data',
    TransferEngine.answer request s d = (reply, s', d') ∧
    TransferEngine.answer request e data = (reply, e', data') ∧ Ahead e' data' s' d'
  := by
  cases request with
  | submit tag t =>
    obtain ⟨s', d', hsubmit, hsubmitted⟩ := h.submit tag t
    exact ⟨_, s', d', _, data, hsubmit, rfl, hsubmitted⟩
  | wait tag =>
    obtain ⟨reply, s', e', data', hwait, hwait', hwaited⟩ := h.wait tag
    use reply, s', d, e', data'
    constructor
    · simp only [TransferEngine.answer, hwait]
    · exact ⟨hwait', hwaited⟩
  | finish =>
    obtain ⟨reply, s', e', data', hfinish, hfinish', hfinished⟩ := h.waitEach e.slots.pending
    use reply, s', d, e', data'
    constructor
    · simp only [TransferEngine.answer, Sequential.finish, h.pending_eq, hfinish]
    · exact ⟨hfinish', hfinished⟩

end Ahead

/-! ### Valid transfers -/

/-- When no transfer has failed, waiting under every busy tag leaves nothing in flight. -/
theorem Sequential.waitEach_of_ok {s : Sequential} (tags : List Tag)
    (hok : ∀ tag outcome, s.slots.get? tag = some outcome → ∃ b, outcome = .ok b)
    (htags : ∀ tag, s.slots.get? tag ≠ none → tag ∈ tags) :
  Sequential.waitEach tags s = (.ok (), .new s.window)
  := by
  induction tags generalizing s with
  | nil =>
    have hempty : s.slots = .empty := by
      apply TagSlots.ext
      intro tag
      rw [TagSlots.get?_empty]
      by_contra hne
      cases htags tag hne
    rw [Sequential.waitEach, Sequential.new, ← hempty]
  | cons tag tags ih =>
    obtain ⟨buffer, hwait⟩ :
        ∃ buffer, s.wait tag = (.ok buffer, { s with slots := s.slots.set tag none }) := by
      rw [Sequential.wait, TagSlots.take]
      cases hslot : s.slots.get? tag with
      | none => exact ⟨none, rfl⟩
      | some outcome =>
        obtain ⟨b, rfl⟩ := hok tag outcome hslot
        exact ⟨some b, rfl⟩
    rw [Sequential.waitEach, hwait]
    apply ih
    · intro tag' outcome houtcome
      rw [TagSlots.get?_set] at houtcome
      split at houtcome
      · cases houtcome
      · apply hok tag' outcome houtcome
    · intro tag' hne
      rw [TagSlots.get?_set] at hne
      split at hne
      · exact absurd rfl hne
      · rename_i hne'
        apply (List.mem_cons.mp (htags tag' hne)).resolve_left (Ne.symm hne')

/-- A sequential engine and an immediate one that hold the same buffers. -/
structure SameBuffers (s : Sequential) (e : Immediate) : Prop where
  window_eq : s.window = e.window
  slots_eq : ∀ tag, s.slots.get? tag = (e.slots.get? tag).map .ok

namespace SameBuffers

variable {s : Sequential} {e : Immediate}

theorem new (w : Window) :
  SameBuffers (.new w) (.new w)
  := by
  constructor
  · rfl
  · intro tag
    simp [Sequential.new, Immediate.new]

/-- The buffers are still the same when the slot of a tag has been set on both sides. -/
theorem set (h : SameBuffers s e) (tag : Tag) (b : Option Buffer) :
  SameBuffers { s with slots := s.slots.set tag (b.map .ok) }
    { e with slots := e.slots.set tag b }
  where
  window_eq := h.window_eq
  slots_eq tag' := by
    rw [TagSlots.get?_set, TagSlots.get?_set]
    split
    · rfl
    · apply h.slots_eq tag'

/-- A transfer that passes its check is begun, or refused because its tag is busy. -/
theorem submit (h : SameBuffers s e) (tag : Tag) {t : Transfer} (hcheck : t.check s.window = .ok ())
    (data : Data) :
  ∃ reply s' e' data', s.submit tag t data = (reply, s', data') ∧
    e.submit tag t data = (reply, e', data') ∧ SameBuffers s' e' ∧ s'.window = s.window
  := by
  by_cases hslot : e.slots.get? tag = none
  · have hfree : s.slots.isPending tag = false := by
      rw [TagSlots.isPending, h.slots_eq, hslot]
      rfl
    use .ok (), { s with slots := s.slots.set tag (some (.ok (t.filled s.window data))) },
      { e with slots := e.slots.set tag (some (t.filled s.window data)) }, t.stored s.window data
    constructor
    · rw [Sequential.submit, if_neg (by simp [hfree]), Transfer.perform_of_check_ok hcheck]
    constructor
    · rw [h.window_eq] at hcheck ⊢
      apply Immediate.submit_of_check_ok hslot hcheck data
    · exact ⟨h.set tag (some _), rfl⟩
  · have hbusy : e.slots.isPending tag = true := Option.isSome_iff_ne_none.mpr hslot
    have hbusy' : s.slots.isPending tag = true := by
      rw [TagSlots.isPending, h.slots_eq, Option.isSome_map]
      apply hbusy
    use .error (.tagBusy tag), s, e, data
    constructor
    · rw [Sequential.submit, if_pos hbusy']
    constructor
    · apply Immediate.submit_of_isPending hbusy data
    · exact ⟨h, rfl⟩

/-- Waiting takes the buffer out of the slot, if there is one. -/
theorem wait (h : SameBuffers s e) (tag : Tag) :
  s.wait tag = (.ok (e.slots.get? tag), { s with slots := s.slots.set tag none })
  := by
  rw [Sequential.wait, TagSlots.take, h.slots_eq]
  cases e.slots.get? tag with
  | none => rfl
  | some b => rfl

/-- Finishing leaves nothing in flight. -/
theorem finish (h : SameBuffers s e) :
  s.finish = (.ok (), .new s.window)
  := by
  apply Sequential.waitEach_of_ok
  · intro tag outcome houtcome
    rw [h.slots_eq, Option.map_eq_some_iff] at houtcome
    obtain ⟨b, -, rfl⟩ := houtcome
    exact ⟨b, rfl⟩
  · intro tag hne
    apply TagSlots.mem_pending.mpr
    exact Option.isSome_iff_ne_none.mpr hne

/-- A sequential engine answers a valid call like an immediate one. -/
theorem answer (h : SameBuffers s e) {request : Call} (hvalid : request.Valid s.window)
    (data : Data) :
  ∃ reply s' e' data',
    TransferEngine.answer request s data = (reply, s', data') ∧
    TransferEngine.answer request e data = (reply, e', data') ∧
    SameBuffers s' e' ∧ s'.window = s.window
  := by
  cases request with
  | submit tag t => exact h.submit tag hvalid data
  | wait tag =>
    use .ok (e.slots.get? tag), { s with slots := s.slots.set tag none },
      { e with slots := e.slots.set tag none }, data
    constructor
    · simp only [TransferEngine.answer, h.wait]
    constructor
    · rfl
    · exact ⟨h.set tag none, rfl⟩
  | finish =>
    use .ok (), .new s.window, .new e.window, data
    constructor
    · simp only [TransferEngine.answer, h.finish]
    constructor
    · rfl
    · rw [h.window_eq]
      exact ⟨.new e.window, rfl⟩

end SameBuffers

/-! ### Sessions -/

namespace Session

variable {α : Type}

/-- A session that makes only valid calls runs on a sequential engine as it does on an immediate
one. -/
theorem run_sequential_eq_immediate {w : Window} {data : Data} (session : Session α)
    (h : session.Along (fun request _ _ => request.Valid w) (Sequential.new w) data) :
  session.Along (fun request _ _ => request.Valid w) (Immediate.new w) data
    ∧ session.transcript (Sequential.new w) data = session.transcript (Immediate.new w) data
    ∧ (session.run (Sequential.new w) data).1 = (session.run (Immediate.new w) data).1
    ∧ (session.run (Sequential.new w) data).2.2 = (session.run (Immediate.new w) data).2.2
  := by
  have hlock := lockstep
    (R := fun s d e d' => SameBuffers s e ∧ d = d' ∧ s.window = w)
    (P := fun request _ _ => request.Valid w) (Q := fun request _ _ => request.Valid w)
    ?_ session ⟨SameBuffers.new w, rfl, rfl⟩ h
  · obtain ⟨halong, htranscript, result, s', d', e', data', hrun, hrun', -, rfl, -⟩ := hlock
    use halong, htranscript
    rw [hrun, hrun']
    exact ⟨rfl, rfl⟩
  · rintro request s d e _ ⟨hsame, rfl, rfl⟩ hvalid
    use hvalid
    obtain ⟨reply, s', e', d', hanswer, hanswer', hsame', hwindow⟩ := hsame.answer hvalid d
    exact ⟨reply, s', d', e', d', hanswer, hanswer', hsame', rfl, hwindow⟩

/-- A session that makes only valid calls on an immediate engine does so on a sequential one. -/
theorem along_sequential {w : Window} {data : Data} (session : Session α)
    (h : session.Along (fun request _ _ => request.Valid w) (Immediate.new w) data) :
  session.Along (fun request _ _ => request.Valid w) (Sequential.new w) data
  := by
  have hlock := lockstep
    (R := fun e d' s d => SameBuffers s e ∧ d = d' ∧ s.window = w)
    (P := fun request _ _ => request.Valid w) (Q := fun request _ _ => request.Valid w)
    ?_ session ⟨SameBuffers.new w, rfl, rfl⟩ h
  · apply hlock.1
  · rintro request e d s _ ⟨hsame, rfl, rfl⟩ hvalid
    use hvalid
    obtain ⟨reply, s', e', d', hanswer, hanswer', hsame', hwindow⟩ := hsame.answer hvalid _
    exact ⟨reply, e', d', s', d', hanswer', hanswer, hsame', rfl, hwindow⟩

/-- A session runs on a sequential engine as it does on a threaded one whose worker is as late as
can be. -/
theorem run_sequential_eq_threaded {s : Sequential} {d : Data} {e : Threaded} {data : Data}
    (session : Session α) (h : Ahead e data s d) :
  session.transcript s d = session.transcript e data
    ∧ ∃ result s' d' e' data',
        session.run s d = (result, s', d') ∧ session.run e data = (result, e', data') ∧
        Ahead e' data' s' d'
  := by
  have hlock := lockstep (R := fun s d e data => Ahead e data s d)
    (P := fun _ _ _ => True) (Q := fun _ _ _ => True) ?_ session h ?_
  · exact hlock.2
  · intro request s d e data h _
    use trivial
    apply h.answer request
  · apply along_of_forall
    intro _ _ _
    trivial

end Session

end ReplicaSum
