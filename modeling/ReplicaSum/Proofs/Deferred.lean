import ReplicaSum.Proofs.Inevitable
import ReplicaSum.Proofs.Reducer
import ReplicaSum.Proofs.Views

/-!
# Deferred transfers

An engine with all the freedom that a transfer engine may have: a transfer that it has accepted
takes effect at some moment, all at once and in any order relative to the other transfers in flight,
but not later than the end of the call that collects it. Of a session that makes only safe calls,
the result and the data at the end are those of the immediate engine, whatever the moments are.
-/

namespace ReplicaSum

/-- How far a transfer in flight has come. -/
inductive Progress where
  /-- It has not taken effect yet. -/
  | pending (transfer : Transfer)
  /-- It has taken effect, and its buffer can be collected. -/
  | complete (buffer : Buffer)

/-- A session that runs on a deferring engine: the rest of the session, what is in flight under each
tag, and the data. -/
structure Deferred (α : Type) where
  session : Session α
  slots : TagSlots Progress
  data : Data

namespace Deferred

variable {α : Type}

/-- Nothing that is in flight is still to take effect. -/
def Settled (slots : TagSlots Progress) : Prop := ∀ tag t, slots.get? tag ≠ some (.pending t)

/-- `Answer w request slots reply slots'`: with `slots` in flight, an engine that serves the window
`w` may answer a call with `reply`, which leaves `slots'` in flight. -/
inductive Answer (w : Window) :
    (request : Call) → TagSlots Progress → request.Reply → TagSlots Progress → Prop where
  /-- A transfer under a free tag that passes its check is accepted. -/
  | accept {slots : TagSlots Progress} {tag : Tag} {t : Transfer}
      (hslot : slots.get? tag = none) (hcheck : t.check w = .ok ()) :
      Answer w (.submit tag t) slots (.ok ()) (slots.set tag (some (.pending t)))
  /-- A transfer under a free tag that fails its check is refused. -/
  | refuse {slots : TagSlots Progress} {tag : Tag} {t : Transfer} {cause : TransferError}
      (hslot : slots.get? tag = none) (hcheck : t.check w = .error cause) :
      Answer w (.submit tag t) slots (.error cause) slots
  /-- A transfer under a busy tag is refused. -/
  | busy {slots : TagSlots Progress} {tag : Tag} {t : Transfer} (hslot : slots.get? tag ≠ none) :
      Answer w (.submit tag t) slots (.error (.tagBusy tag)) slots
  /-- Waiting under a free tag gives nothing. -/
  | idle {slots : TagSlots Progress} {tag : Tag} (hslot : slots.get? tag = none) :
      Answer w (.wait tag) slots (.ok none) slots
  /-- Waiting under a busy tag ends once its transfer has taken effect. -/
  | collect {slots : TagSlots Progress} {tag : Tag} {buffer : Buffer}
      (hslot : slots.get? tag = some (.complete buffer)) :
      Answer w (.wait tag) slots (.ok (some buffer)) (slots.set tag none)
  /-- Finishing ends once every transfer has taken effect. -/
  | finish {slots : TagSlots Progress} (hsettled : Settled slots) :
      Answer w .finish slots (.ok ()) .empty

/-- The steps of a session on an engine that serves the window `w`. -/
inductive Step (w : Window) : Deferred α → Deferred α → Prop where
  /-- A transfer in flight takes effect. -/
  | effect {session : Session α} {slots : TagSlots Progress} {data data' : Data} {tag : Tag}
      {t : Transfer} {buffer : Buffer} (hslot : slots.get? tag = some (.pending t))
      (heffect : t.perform w data = (.ok buffer, data')) :
      Step w ⟨session, slots, data⟩ ⟨session, slots.set tag (some (.complete buffer)), data'⟩
  /-- The session makes its next call. -/
  | answer {request : Call} {next : request.Reply → Session α} {slots slots' : TagSlots Progress}
      {data : Data} {reply : request.Reply} (hanswer : Answer w request slots reply slots') :
      Step w ⟨.call request next, slots, data⟩ ⟨next reply, slots', data⟩

/-! ### Transfers that have not taken effect -/

/-- Whether a transfer in flight is still to take effect. -/
def isUnsettled : Option Progress → Bool
  | some (.pending _) => true
  | _ => false

/-- The number of transfers in flight that are still to take effect. -/
def nUnsettled (slots : TagSlots Progress) : Nat :=
  Tag.all.countP fun tag => isUnsettled (slots.get? tag)

/-- When a transfer takes effect, one less is left. -/
theorem nUnsettled_set_lt {slots : TagSlots Progress} {tag : Tag} {t : Transfer} (buffer : Buffer)
    (h : slots.get? tag = some (.pending t)) :
  nUnsettled (slots.set tag (some (.complete buffer))) < nUnsettled slots
  := by
  have hle : ∀ tags : List Tag,
      tags.countP (fun u => isUnsettled ((slots.set tag (some (.complete buffer))).get? u))
        ≤ tags.countP fun u => isUnsettled (slots.get? u) := by
    intro tags
    apply List.countP_mono_left
    intro u _ hu
    rw [TagSlots.get?_set] at hu
    split at hu
    · cases hu
    · apply hu
  have hmem : tag ∈ Tag.all := List.mem_map.mpr ⟨tag.index, List.mem_finRange _, rfl⟩
  obtain ⟨front, back, hall⟩ := List.append_of_mem hmem
  have hfront := hle front
  have hback := hle back
  rw [nUnsettled, nUnsettled, hall, List.countP_append, List.countP_append,
    List.countP_cons_of_neg, List.countP_cons_of_pos]
  · omega
  · rw [h, isUnsettled]
  · rw [TagSlots.get?_set, if_pos rfl]
    apply Bool.false_ne_true

/-! ### Agreement with the tracked engine -/

/-- A tracked engine has carried out every transfer in flight, and a deferring engine only some of
them. The tracked engine is ahead of it just by the others: it keeps the buffers that they are going
to fill, and its data are those that they are going to leave. -/
structure Agrees (w : Window) (e : Tracked) (d : Data) (slots : TagSlots Progress) (data : Data) :
    Prop where
  window_eq : e.window = w
  free : ∀ tag, slots.get? tag = none → e.slot tag = none
  complete : ∀ tag b, slots.get? tag = some (.complete b) → e.slot tag = some b
  pending : ∀ tag t, slots.get? tag = some (.pending t) →
    t.check w = .ok () ∧ e.flight tag = some t ∧ e.slot tag = some (t.filled w data)
  compatible : ∀ tag tag' t u, tag ≠ tag' → slots.get? tag = some (.pending t) →
    slots.get? tag' = some (.pending u) → Transfer.Compatible w t u
  size_eq : d.size = data.size
  ahead : ∀ tag t, slots.get? tag = some (.pending t) →
    ∀ i ∈ t.writes, d[i]? = (t.stored w data)[i]?
  level : ∀ i, (∀ tag t, slots.get? tag = some (.pending t) → i ∉ t.writes) → d[i]? = data[i]?

variable {w : Window} {e : Tracked} {d data : Data} {slots : TagSlots Progress} {tag : Tag}
variable {t : Transfer}

/-- Engines agree when nothing is in flight. -/
theorem Agrees.new (w : Window) (data : Data) :
  Agrees w (.new w) data .empty data
  := by
  constructor
  all_goals simp [Tracked.new, Tracked.window, Tracked.slot, Immediate.new]

/-- Once every transfer has taken effect, the data are the same. -/
theorem Agrees.data_eq (h : Agrees w e d slots data) (hsettled : Settled slots) :
  d = data
  := by
  apply Array.ext_getElem?
  intro i
  apply h.level
  intro tag t ht
  exact absurd ht (hsettled tag t)

/-- What is pending when a slot has been set to something that isn't pending was pending before,
under another tag. -/
theorem pending_of_set {progress : Option Progress} {tag' : Tag} {u : Transfer}
    (hprogress : ∀ t, progress ≠ some (.pending t))
    (hu : (slots.set tag progress).get? tag' = some (.pending u)) :
  tag ≠ tag' ∧ slots.get? tag' = some (.pending u)
  := by
  rw [TagSlots.get?_set] at hu
  split at hu
  · exact absurd hu (hprogress u)
  · exact ⟨‹_›, hu⟩

/-- The engines still agree when a transfer has taken effect. -/
theorem Agrees.effect (h : Agrees w e d slots data) (ht : slots.get? tag = some (.pending t)) :
  Agrees w e d (slots.set tag (some (.complete (t.filled w data)))) (t.stored w data)
  := by
  obtain ⟨hcheck, hflight, hslot⟩ := h.pending tag t ht
  have hold : ∀ tag' u,
      (slots.set tag (some (.complete (t.filled w data)))).get? tag' = some (.pending u) →
      tag ≠ tag' ∧ slots.get? tag' = some (.pending u) := by
    intro tag' u
    apply pending_of_set
    rintro _ ⟨⟩
  constructor
  case window_eq => exact h.window_eq
  case free =>
    intro tag' hfree
    rw [TagSlots.get?_set] at hfree
    split at hfree
    · cases hfree
    · apply h.free tag' hfree
  case complete =>
    intro tag' b hb
    rw [TagSlots.get?_set] at hb
    split at hb
    · rename_i heq
      cases hb
      rw [← heq, hslot]
    · apply h.complete tag' b hb
  case pending =>
    intro tag' u hu
    obtain ⟨hne, hu⟩ := hold tag' u hu
    obtain ⟨hcheck', hflight', hslot'⟩ := h.pending tag' u hu
    use hcheck', hflight'
    rw [hslot', (h.compatible tag' tag u t (Ne.symm hne) hu ht).filled_stored hcheck]
  case compatible =>
    intro tag₁ tag₂ t₁ t₂ hne h₁ h₂
    apply h.compatible tag₁ tag₂ t₁ t₂ hne (hold tag₁ t₁ h₁).2 (hold tag₂ t₂ h₂).2
  case size_eq =>
    rw [Transfer.size_stored]
    apply h.size_eq
  case ahead =>
    intro tag' u hu i hi
    obtain ⟨hne, hu⟩ := hold tag' u hu
    rw [h.ahead tag' u hu i hi]
    apply Transfer.getElem?_stored_congr (h.pending tag' u hu).1
    · rw [Transfer.size_stored]
    · apply hi
  case level =>
    intro i hi
    by_cases hit : i ∈ t.writes
    · apply h.ahead tag t ht i hit
    · rw [Transfer.getElem?_stored_of_not_mem hcheck hit]
      apply h.level
      intro tag' u hu
      rcases eq_or_ne tag tag' with rfl | hne
      · rw [ht] at hu
        cases hu
        apply hit
      · apply hi tag' u
        rw [TagSlots.get?_set, if_neg hne, hu]

/-- A safe transfer fetches the same records whether or not those that are pending have taken
effect. -/
theorem Agrees.filled_eq (h : Agrees w e d slots data)
    (hcompatible : ∀ tag u, slots.get? tag = some (.pending u) → Transfer.Compatible w u t) :
  t.filled w d = t.filled w data
  := by
  apply Transfer.filled_congr
  use h.size_eq
  intro i hi
  apply h.level
  intro tag u hu hiu
  apply (hcompatible tag u hu).writes_reads i hiu hi

/-- The engines still agree when a safe transfer has been begun. -/
theorem Agrees.accept (h : Agrees w e d slots data) (hslot : slots.get? tag = none)
    (hsafe : Tracked.Safe (.submit tag t) e d) :
  Agrees w (e.begun tag t d) (t.stored w d) (slots.set tag (some (.pending t))) data
  := by
  obtain ⟨hcheck, hcompatible⟩ := hsafe
  rw [h.window_eq] at hcheck hcompatible
  have hothers : ∀ tag' u, slots.get? tag' = some (.pending u) → Transfer.Compatible w u t := by
    intro tag' u hu
    apply hcompatible tag' u (h.pending tag' u hu).2.1
  constructor
  case window_eq => exact h.window_eq
  case free =>
    intro tag' hfree
    rw [TagSlots.get?_set] at hfree
    split at hfree
    · cases hfree
    · rename_i hne
      rw [Tracked.slot_begun, if_neg hne]
      apply h.free tag' hfree
  case complete =>
    intro tag' b hb
    rw [TagSlots.get?_set] at hb
    split at hb
    · cases hb
    · rename_i hne
      rw [Tracked.slot_begun, if_neg hne]
      apply h.complete tag' b hb
  case pending =>
    intro tag' u hu
    rw [TagSlots.get?_set] at hu
    rw [Tracked.flight_begun, Tracked.slot_begun]
    split at hu
    · rename_i heq
      cases hu
      rw [if_pos heq, if_pos heq, h.window_eq, h.filled_eq hothers]
      exact ⟨hcheck, rfl, rfl⟩
    · rename_i hne
      rw [if_neg hne, if_neg hne]
      apply h.pending tag' u hu
  case compatible =>
    intro tag₁ tag₂ t₁ t₂ hne h₁ h₂
    rw [TagSlots.get?_set] at h₁ h₂
    split at h₁
    · rename_i heq
      cases h₁
      rw [if_neg (heq ▸ hne)] at h₂
      apply (hothers tag₂ t₂ h₂).symm
    · split at h₂
      · cases h₂
        apply hothers tag₁ t₁ h₁
      · apply h.compatible tag₁ tag₂ t₁ t₂ hne h₁ h₂
  case size_eq =>
    rw [Transfer.size_stored]
    apply h.size_eq
  case ahead =>
    intro tag' u hu i hi
    rw [TagSlots.get?_set] at hu
    split at hu
    · cases hu
      apply Transfer.getElem?_stored_congr hcheck h.size_eq hi
    · have hit : i ∉ t.writes := (hothers tag' u hu).writes_writes i hi
      rw [Transfer.getElem?_stored_of_not_mem hcheck hit]
      apply h.ahead tag' u hu i hi
  case level =>
    intro i hi
    have hit : i ∉ t.writes := by
      apply hi tag t
      rw [TagSlots.get?_set, if_pos rfl]
    rw [Transfer.getElem?_stored_of_not_mem hcheck hit]
    apply h.level
    intro tag' u hu
    apply hi tag' u
    rw [TagSlots.get?_set, if_neg _, hu]
    rintro rfl
    rw [hslot] at hu
    cases hu

/-- The engines still agree when a tag has been freed under which nothing was still to
take effect. -/
theorem Agrees.free_tag (h : Agrees w e d slots data)
    (htag : ∀ t, slots.get? tag ≠ some (.pending t)) :
  Agrees w (e.freed tag) d (slots.set tag none) data
  := by
  have hold : ∀ tag' u, (slots.set tag none).get? tag' = some (.pending u) →
      tag ≠ tag' ∧ slots.get? tag' = some (.pending u) := by
    intro tag' u
    apply pending_of_set
    rintro _ ⟨⟩
  constructor
  case window_eq => exact h.window_eq
  case free =>
    intro tag' hfree
    rw [Tracked.slot_freed]
    split
    · rfl
    · rename_i hne
      rw [TagSlots.get?_set, if_neg hne] at hfree
      apply h.free tag' hfree
  case complete =>
    intro tag' b hb
    rw [TagSlots.get?_set] at hb
    split at hb
    · cases hb
    · rename_i hne
      rw [Tracked.slot_freed, if_neg hne]
      apply h.complete tag' b hb
  case pending =>
    intro tag' u hu
    obtain ⟨hne, hu⟩ := hold tag' u hu
    rw [Tracked.flight_freed, Tracked.slot_freed, if_neg hne, if_neg hne]
    apply h.pending tag' u hu
  case compatible =>
    intro tag₁ tag₂ t₁ t₂ hne h₁ h₂
    apply h.compatible tag₁ tag₂ t₁ t₂ hne (hold tag₁ t₁ h₁).2 (hold tag₂ t₂ h₂).2
  case size_eq => exact h.size_eq
  case ahead =>
    intro tag' u hu
    apply h.ahead tag' u (hold tag' u hu).2
  case level =>
    intro i hi
    apply h.level
    intro tag' u hu
    apply hi tag' u
    rw [TagSlots.get?_set, if_neg _, hu]
    rintro rfl
    apply htag u hu

/-! ### Sessions -/

/-- A busy tag is busy on both engines. -/
theorem Agrees.slot_ne_none (h : Agrees w e d slots data) (hslot : slots.get? tag ≠ none) :
  e.slot tag ≠ none
  := by
  cases hslot' : slots.get? tag with
  | none => exact absurd hslot' hslot
  | some progress =>
    cases progress with
    | pending u =>
      rw [(h.pending tag u hslot').2.2]
      exact Option.some_ne_none _
    | complete b =>
      rw [h.complete tag b hslot']
      exact Option.some_ne_none _

/-- Whenever a deferring engine may answer a safe call, the tracked engine gives the same answer. -/
theorem Agrees.answer {request : Call} {reply : request.Reply} {slots' : TagSlots Progress}
    (h : Agrees w e d slots data) (hsafe : Tracked.Safe request e d)
    (hanswer : Answer w request slots reply slots') :
  ∃ e' d', TransferEngine.answer request e d = (reply, e', d') ∧ Agrees w e' d' slots' data
  := by
  cases hanswer with
  | @accept _ tag t hslot hcheck =>
    use e.begun tag t d, t.stored w d
    constructor
    · rw [← h.window_eq]
      apply Tracked.answer_submit_ok (h.free tag hslot) hsafe.1 d
    · apply h.accept hslot hsafe
  | @refuse _ tag t cause hslot hcheck =>
    rw [← h.window_eq, hsafe.1] at hcheck
    cases hcheck
  | @busy _ tag t hslot =>
    use e, d
    constructor
    · apply Tracked.answer_submit_busy (h.slot_ne_none hslot) d
    · apply h
  | @idle _ tag hslot =>
    use e.freed tag, d
    constructor
    · rw [← h.free tag hslot]
      rfl
    · rw [← TagSlots.set_none hslot]
      apply h.free_tag
      intro t
      rw [hslot]
      rintro ⟨⟩
  | @collect _ tag buffer hslot =>
    use e.freed tag, d
    constructor
    · rw [← h.complete tag buffer hslot]
      rfl
    · apply h.free_tag
      intro t
      rw [hslot]
      rintro ⟨⟩
  | finish hsettled =>
    use .new w, d
    constructor
    · rw [← h.window_eq]
      rfl
    · rw [h.data_eq hsettled]
      exact .new w data

/-- A deferring engine may answer the next call, unless a transfer is still to take effect. -/
theorem exists_answer (w : Window) (request : Call) {slots : TagSlots Progress}
    (hsettled : Settled slots) :
  ∃ reply slots', Answer w request slots reply slots'
  := by
  cases request with
  | submit tag t =>
    by_cases hslot : slots.get? tag = none
    · cases hcheck : t.check w with
      | ok => exact ⟨_, _, .accept hslot hcheck⟩
      | error cause => exact ⟨_, _, .refuse hslot hcheck⟩
    · exact ⟨_, _, .busy hslot⟩
  | wait tag =>
    cases hslot : slots.get? tag with
    | none => exact ⟨_, _, .idle hslot⟩
    | some progress =>
      cases progress with
      | pending t => exact absurd hslot (hsettled tag t)
      | complete buffer => exact ⟨_, _, .collect hslot⟩
  | finish => exact ⟨_, _, .finish hsettled⟩

/-- Where no step is left, nothing is still to take effect. -/
theorem Agrees.settled_of_stuck {s : Session α} (h : Agrees w e d slots data)
    (hstuck : ∀ st, ¬ Step w ⟨s, slots, data⟩ st) :
  Settled slots
  := by
  intro tag t ht
  apply hstuck _
  exact .effect ht (Transfer.perform_of_check_ok (h.pending tag t ht).1 data)

/-- An outcome is inevitable if it is after every answer to the next call, however many transfers
take effect before. -/
theorem inevitably_of_answers {s : Session α} {Q : Deferred α → Prop}
    (hanswer : ∀ {request : Call} {next : request.Reply → Session α} {slots data reply slots'},
      s = .call request next → Agrees w e d slots data → Answer w request slots reply slots' →
        Inevitably (Step w) Q ⟨next reply, slots', data⟩)
    (hended : ∀ {slots data}, Agrees w e d slots data → Settled slots →
      (∀ st, ¬ Step w ⟨s, slots, data⟩ st) → Q ⟨s, slots, data⟩)
    (h : Agrees w e d slots data) :
  Inevitably (Step w) Q ⟨s, slots, data⟩
  := by
  generalize hn : nUnsettled slots = n
  induction n using Nat.strongRecOn generalizing slots data with
  | ind n ih =>
    constructor
    · intro st hstep
      cases hstep with
      | @effect _ _ _ _ tag t buffer hslot heffect =>
        rw [Transfer.perform_of_check_ok (h.pending tag t hslot).1] at heffect
        cases heffect
        apply ih _ _ (h.effect hslot) rfl
        rw [← hn]
        apply nUnsettled_set_lt _ hslot
      | answer hreply => exact hanswer rfl h hreply
    · intro hstuck
      apply hended h (h.settled_of_stuck hstuck) hstuck

/-- Of a session that makes only safe calls, every execution comes to an end, with the result and
the data that the tracked engine gives. -/
theorem inevitably_run (s : Session α) (halong : s.Along Tracked.Safe e d)
    (h : Agrees w e d slots data) :
  Inevitably (Step w)
    (fun st => st.session = .done (s.run e d).1 ∧ st.data = (s.run e d).2.2)
    ⟨s, slots, data⟩
  := by
  induction s generalizing e d slots data with
  | done result =>
    apply inevitably_of_answers _ _ h
    · intro request next _ _ _ _ hcall
      cases hcall
    · intro slots data h hsettled _
      exact ⟨rfl, (h.data_eq hsettled).symm⟩
  | call request next ih =>
    rw [Session.Along] at halong
    apply inevitably_of_answers _ _ h
    · intro _ _ slots data reply slots' hcall h hanswer
      cases hcall
      obtain ⟨e', d', hans, h'⟩ := h.answer halong.1 hanswer
      rw [hans] at halong
      rw [Session.run, hans]
      apply ih reply halong.2 h'
    · intro slots data h hsettled hstuck
      obtain ⟨reply, slots', hanswer⟩ := exists_answer w request hsettled
      exact absurd (.answer hanswer) (hstuck _)

end Deferred

/-! ### The reducer -/

/-- A rank doesn't depend on the moments at which its transfers take effect. Whatever they
are, it comes to an end, and it reports what it reports with an immediate engine and leaves
the same data: the records of its range are replaced by their sums. -/
theorem Rank.session_deferred {data : Data} {v : View} (hv : v.Of data.size) {range : Span}
    (hrange : ∀ i ∈ range, i ∈ v.owned) {nArray : Nat} (h₂ : 2 ≤ nArray) (hn : nArray ≤ v.nArray)
    (scratch : Scratch) :
  ∃ data',
    Session.run (Rank.session range nArray scratch).run (Immediate.new v.window) data
      = (.ok (.complete range scratch.blockLen), .new v.window, data') ∧
    Reduced v.stride nArray (· ∈ range) data data' ∧
    Inevitably (Deferred.Step v.window)
      (fun st => st.session = .done (.ok (.complete range scratch.blockLen)) ∧ st.data = data')
      ⟨(Rank.session range nArray scratch).run, .empty, data⟩
  := by
  obtain ⟨data', hruns, hreduced⟩ := Rank.runs_session scratch hv.fits h₂ hn hrange
  obtain ⟨-, result, e₁, data₁, hrun, himmediate⟩ := Tracked.run_engine hruns.along
  rw [hruns.run_eq] at hrun
  cases hrun
  use data', himmediate, hreduced
  have hdeferred := Deferred.inevitably_run _ hruns.along (Deferred.Agrees.new v.window data)
  rw [hruns.run_eq] at hdeferred
  apply hdeferred

/-- The second and the third record of two arrays of three, in blocks of one, so that the second
block is fetched while the first is stored. -/
theorem Rank.session_deferred_two_blocks :
  View.Of 8 ⟨2, 4, 1, 2, 1⟩ ∧ (∀ i ∈ Span.mk 1 3, i ∈ (View.mk 2 4 1 2 1).owned) ∧
  ∃ data',
    Session.run (Rank.session ⟨1, 3⟩ 2 (.blank 1 (by decide))).run
        (Immediate.new (View.mk 2 4 1 2 1).window) (Array.replicate 8 (Lanes.splat 1.5))
      = (.ok ⟨⟨1, 3⟩, 2, 2⟩, .new (View.mk 2 4 1 2 1).window, data') ∧
    Reduced 4 2 (· ∈ Span.mk 1 3) (Array.replicate 8 (Lanes.splat 1.5)) data' ∧
    Inevitably (Deferred.Step (View.mk 2 4 1 2 1).window)
      (fun st => st.session = .done (.ok ⟨⟨1, 3⟩, 2, 2⟩) ∧ st.data = data')
      ⟨(Rank.session ⟨1, 3⟩ 2 (.blank 1 (by decide))).run, .empty,
        Array.replicate 8 (Lanes.splat 1.5)⟩
  := by
  have hwhole : View.Of 8 ⟨2, 4, 0, 3, 1⟩ := .ofLayout (l := ⟨2, 3, 4⟩) rfl
  have hview : View.Of 8 ⟨2, 4, 1, 2, 1⟩ := .back (k := 1) hwhole rfl
  have hrange : ∀ i ∈ Span.mk 1 3, i ∈ (View.mk 2 4 1 2 1).owned := fun _ hi => hi
  use hview, hrange
  apply Rank.session_deferred _ hrange (by decide) (by decide)
  rw [Array.size_replicate]
  apply hview

end ReplicaSum
