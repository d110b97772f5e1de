import ReplicaSum.Proofs.Sequential
import ReplicaSum.Proofs.Uncollected
import Mathlib.Data.List.Nodup

/-!
# What an engine keeps

The slots of an engine hold something for each transfer that nobody has collected yet, and nothing
else. What `Kept` says of the slots is kept by whatever fills or empties a slot, so that an engine
need only say what it puts into a slot and how it answers from there. This holds of the immediate
engine, and of the sequential one, which is ahead of the threaded one.
-/

namespace ReplicaSum

theorem Tag.nodup_all :
  Tag.all.Nodup
  := by
  apply List.Nodup.map _ (List.nodup_finRange maxTags)
  intro i j hij
  exact congrArg Tag.index hij

/-- The tags with a transfer in flight come in increasing order. -/
theorem TagSlots.pairwise_pending {H : Type} (slots : TagSlots H) :
  slots.pending.Pairwise fun u v => u.index < v.index
  := by
  apply List.Pairwise.filter
  apply List.pairwise_map.mpr
  apply List.pairwise_lt_finRange

/-- For each transfer in `held`, and for no other one, the slots hold something under its tag that
stands for it according to `R`. -/
structure Kept {H : Type} (R : H → Transfer → Prop) (slots : TagSlots H)
    (held : List (Tag × Transfer)) : Prop where
  nodup : (held.map Prod.fst).Nodup
  free : ∀ tag, slots.get? tag = none → ∀ t, (tag, t) ∉ held
  taken : ∀ tag a, slots.get? tag = some a → ∃ t, (tag, t) ∈ held ∧ R a t

namespace Kept

variable {H : Type} {R R' : H → Transfer → Prop} {slots : TagSlots H}
variable {held : List (Tag × Transfer)} {w : Window} {tag : Tag} {t : Transfer} {a : H}

theorem empty (R : H → Transfer → Prop) :
  Kept R .empty []
  where
  nodup := .nil
  free _ _ _ := List.not_mem_nil
  taken tag a h := by
    rw [TagSlots.get?_empty] at h
    cases h

theorem mono (h : Kept R slots held) (hR : ∀ a t, R a t → R' a t) :
  Kept R' slots held
  where
  nodup := h.nodup
  free := h.free
  taken tag a hslot := by
    obtain ⟨t, hmem, ht⟩ := h.taken tag a hslot
    exact ⟨t, hmem, hR a t ht⟩

/-- What a slot holds stands for whatever is held under its tag. -/
theorem related (h : Kept R slots held) (hslot : slots.get? tag = some a) (hmem : (tag, t) ∈ held) :
  R a t
  := by
  obtain ⟨t', hmem', ht'⟩ := h.taken tag a hslot
  cases List.inj_on_of_nodup_map h.nodup hmem hmem' rfl
  exact ht'

theorem mem_pending_iff (h : Kept R slots held) :
  tag ∈ slots.pending ↔ tag ∈ held.map Prod.fst
  := by
  rw [TagSlots.mem_pending, TagSlots.isPending, Option.isSome_iff_exists, List.mem_map]
  constructor
  · rintro ⟨a, hslot⟩
    obtain ⟨t, hmem, -⟩ := h.taken tag a hslot
    exact ⟨(tag, t), hmem, rfl⟩
  · rintro ⟨⟨_, t⟩, hmem, rfl⟩
    apply Option.ne_none_iff_exists'.mp
    intro hfree
    exact h.free _ hfree t hmem

/-- As many transfers are in flight as there are uncollected ones. -/
theorem nPending_eq (h : Kept R slots held) :
  slots.nPending = held.length
  := by
  have hperm : slots.pending.Perm (held.map Prod.fst) := by
    apply (List.perm_ext_iff_of_nodup _ h.nodup).mpr
    · intro tag
      apply h.mem_pending_iff
    · apply Tag.nodup_all.filter
  rw [TagSlots.nPending, hperm.length_eq, List.length_map]

/-- The slot of a free tag is filled. -/
theorem begun (h : Kept R slots held) (hfree : slots.get? tag = none) (ha : R a t) :
  Kept R (slots.set tag (some a)) (held ++ [(tag, t)])
  where
  nodup := by
    rw [List.map_append, List.map_singleton]
    apply List.nodup_append_comm.mp
    apply List.nodup_cons.mpr
    refine ⟨?_, h.nodup⟩
    intro hmem
    obtain ⟨⟨_, u⟩, hu, rfl⟩ := List.mem_map.mp hmem
    exact h.free _ hfree u hu
  free tag' hslot u hmem := by
    rw [TagSlots.get?_set] at hslot
    split at hslot
    · cases hslot
    · rename_i hne
      rcases List.mem_append.mp hmem with hmem | hnew
      · exact h.free tag' hslot u hmem
      · cases List.mem_singleton.mp hnew
        exact hne rfl
  taken tag' a' hslot := by
    rw [TagSlots.get?_set] at hslot
    split at hslot
    · rename_i heq
      cases hslot
      use t
      rw [← heq]
      exact ⟨List.mem_append_right _ (.head _), ha⟩
    · obtain ⟨u, hmem, hu⟩ := h.taken tag' a' hslot
      exact ⟨u, List.mem_append_left _ hmem, hu⟩

/-- The slot of a tag is emptied. -/
theorem freed (h : Kept R slots held) (tag : Tag) :
  Kept R (slots.set tag none) (held.filter fun x => x.1 ≠ tag)
  where
  nodup := h.nodup.sublist (List.filter_sublist.map _)
  free tag' hslot u hmem := by
    obtain ⟨hmem, hne⟩ := List.mem_filter.mp hmem
    rw [TagSlots.get?_set] at hslot
    split at hslot
    · rename_i heq
      simp [heq] at hne
    · exact h.free tag' hslot u hmem
  taken tag' a hslot := by
    rw [TagSlots.get?_set] at hslot
    split at hslot
    · cases hslot
    · rename_i hne
      obtain ⟨u, hmem, hu⟩ := h.taken tag' a hslot
      use u
      simp [hmem, hu, Ne.symm hne]

/-- Under a free tag, any reply to a begin is due. -/
theorem due_submit (h : Kept R slots held) (hfree : slots.get? tag = none)
    (reply : Except TransferError Unit) :
  Exchange.Due w held ⟨.submit tag t, reply⟩
  := by
  rintro ⟨u, hu⟩
  exact absurd hu (h.free tag hfree u)

/-- A wait is answered from the slot of its tag. -/
theorem due_wait (h : Kept R slots held) {reply : Except TransferError (Option Buffer)}
    (hfree : slots.get? tag = none → reply = .ok none)
    (htaken : ∀ a, slots.get? tag = some a → ∀ t, R a t →
      reply = .error (.timedOut tag) ∨ ∃ d, reply = (t.perform w d).1.map some) :
  Exchange.Due w held ⟨.wait tag, reply⟩
  := by
  constructor
  · intro hnone
    apply hfree
    by_contra hslot
    obtain ⟨a, ha⟩ := Option.ne_none_iff_exists'.mp hslot
    obtain ⟨t, hmem, -⟩ := h.taken tag a ha
    exact hnone t hmem
  · intro t hmem
    cases hslot : slots.get? tag with
    | none => exact absurd hmem (h.free tag hslot t)
    | some a => exact htaken a hslot t (h.related hslot hmem)

end Kept

/-! ### Finishing -/

/-- A call that finishes has yet to wait under `tags`. Everything else in `held` comes before them,
and has gone well. -/
structure Finishing (w : Window) (tags : List Tag) (held : List (Tag × Transfer)) : Prop where
  sorted : tags.Pairwise fun u v => u.index < v.index
  past : ∀ x ∈ held, x.1 ∉ tags → (x.2.check w).isOk ∧ ∀ u ∈ tags, x.1.index < u.index

namespace Finishing

variable {w : Window} {held : List (Tag × Transfer)} {tag : Tag} {tags : List Tag}

/-- A call that finishes begins to wait under all busy tags. -/
theorem of_kept {H : Type} {R : H → Transfer → Prop} {slots : TagSlots H} (h : Kept R slots held) :
  Finishing w slots.pending held ∧ (held.filter fun x => x.1 ∈ slots.pending) = held
  := by
  have hpending : ∀ x ∈ held, x.1 ∈ slots.pending :=
    fun x hx => h.mem_pending_iff.mpr (List.mem_map_of_mem hx)
  refine ⟨⟨slots.pairwise_pending, ?_⟩, ?_⟩
  · intro x hx hnot
    exact absurd (hpending x hx) hnot
  · apply List.filter_eq_self.mpr
    intro x hx
    exact decide_eq_true (hpending x hx)

/-- What is still to be waited for once the first tag has been. -/
theorem filter_tail (h : Finishing w (tag :: tags) held) :
  ((held.filter fun x => x.1 ∈ tag :: tags).filter fun x => x.1 ≠ tag)
    = held.filter fun x => x.1 ∈ tags
  := by
  have hnot : tag ∉ tags := fun hmem =>
    absurd ((List.pairwise_cons.mp h.sorted).1 tag hmem) (Fin.lt_irrefl _)
  rw [List.filter_filter]
  apply List.filter_congr
  intro x _
  by_cases hx : x.1 = tag
  · simp [hx, hnot]
  · simp [hx]

/-- A transfer went well. -/
theorem collected (h : Finishing w (tag :: tags) held) {b : Option Buffer}
    (hdue : Exchange.Due w (held.filter fun x => x.1 ∈ tag :: tags) ⟨.wait tag, .ok b⟩) :
  Finishing w tags held
  := by
  obtain ⟨hlt, hsorted⟩ := List.pairwise_cons.mp h.sorted
  use hsorted
  intro x hx hnot
  by_cases htag : x.1 = tag
  · have hmem : (tag, x.2) ∈ held.filter fun x => x.1 ∈ tag :: tags := by
      rw [← htag]
      exact List.mem_filter.mpr ⟨hx, by simp⟩
    have hcheck : (x.2.check w).isOk := by
      rcases hdue.2 x.2 hmem with htimedOut | ⟨d, hperform⟩
      · cases htimedOut
      · rw [← x.2.isOk_perform w d]
        cases houtcome : (x.2.perform w d).1 with
        | ok => rfl
        | error cause =>
          rw [houtcome] at hperform
          cases hperform
    rw [htag]
    exact ⟨hcheck, hlt⟩
  · obtain ⟨hcheck, hbefore⟩ := h.past x hx (by simp [htag, hnot])
    exact ⟨hcheck, fun u hu => hbefore u (.tail _ hu)⟩

/-- What is waited for comes before everything that is still to be waited for then. -/
theorem mem_tags_iff (h : Finishing w (tag :: tags) held) {x : Tag × Transfer} (hx : x ∈ held) :
  x.1 ∈ tags ↔ tag.index < x.1.index
  := by
  constructor
  · intro hmem
    exact (List.pairwise_cons.mp h.sorted).1 x.1 hmem
  · intro hlt
    by_contra hnot
    have hne : x.1 ≠ tag := by
      rintro heq
      rw [heq] at hlt
      exact Fin.lt_irrefl _ hlt
    obtain ⟨-, hbefore⟩ := h.past x hx (by simp [hne, hnot])
    exact Fin.lt_asymm hlt (hbefore tag (.head _))

/-- If the transfer that is waited for has failed, it is the first one that has. -/
theorem exists_failed_iff (h : Finishing w (tag :: tags) held) {t : Transfer}
    (hmem : (tag, t) ∈ held) (hfailed : (t.check w).isOk = false) {x : Tag × Transfer}
    (hx : x ∈ held) :
  (∃ y ∈ held, (y.2.check w).isOk = false ∧ y.1.index < x.1.index) ↔ x.1 ∈ tags
  := by
  rw [h.mem_tags_iff hx]
  constructor
  · rintro ⟨y, hy, hyfailed, hlt⟩
    by_contra hge
    have hytags : y.1 ∉ tags := by
      rw [h.mem_tags_iff hy]
      intro hty
      exact hge (Fin.lt_trans hty hlt)
    have hytag : y.1 ≠ tag := by
      rintro heq
      rw [heq] at hlt
      exact hge hlt
    obtain ⟨hok, -⟩ := h.past y hy (by simp [hytags, hytag])
    cases hok.symm.trans hyfailed
  · intro hlt
    exact ⟨(tag, t), hmem, hfailed, hlt⟩

/-- A transfer failed, or was given up on, so the others are not waited for. -/
theorem leftBy_eq (h : Finishing w (tag :: tags) held) {cause : TransferError}
    (hdue : Exchange.Due w (held.filter fun x => x.1 ∈ tag :: tags) ⟨.wait tag, .error cause⟩) :
  Exchange.leftBy w held cause = held.filter fun x => x.1 ∈ tags
  := by
  obtain ⟨t, hmem⟩ : ∃ t, (tag, t) ∈ held.filter fun x => x.1 ∈ tag :: tags := by
    by_contra hnone
    cases hdue.1 (not_exists.mp hnone)
  rcases hdue.2 t hmem with htimedOut | ⟨d, hperform⟩
  · cases htimedOut
    apply List.filter_congr
    intro x hx
    simp only [h.mem_tags_iff hx]
  · have houtcome : (t.perform w d).1 = .error cause := by
      cases houtcome : (t.perform w d).1 with
      | ok => simp [houtcome, Except.map] at hperform
      | error => simpa [houtcome, Except.map] using hperform.symm
    have hcheck := Transfer.check_of_perform_error houtcome
    have hfailed : (t.check w).isOk = false := by
      rw [hcheck]
      rfl
    rw [Exchange.leftBy_of_tag?_eq_none (Transfer.tag?_of_check_error hcheck)]
    apply List.filter_congr
    intro x hx
    rw [Bool.eq_iff_iff]
    simp only [List.any_eq_true, Bool.and_eq_true, Bool.not_eq_true', decide_eq_true_eq]
    apply h.exists_failed_iff (List.mem_filter.mp hmem).1 hfailed hx

end Finishing

/-! ### Reached states -/

namespace Session

variable {α σ : Type} [TransferEngine σ]

/-- `Reaches s e data xs s' e' data'`: once the calls `xs` have been answered, a session `s` on an
engine `e` with the data `data` is about to go on as `s'`, and the engine and the data have become
`e'` and `data'`. -/
inductive Reaches (s : Session α) (e : σ) (data : Data) :
    List Exchange → Session α → σ → Data → Prop where
  | start : Reaches s e data [] s e data
  | answer {xs : List Exchange} {request : Call} {next : request.Reply → Session α} {e₁ e₂ : σ}
      {data₁ data₂ : Data} {reply : request.Reply}
      (h : Reaches s e data xs (.call request next) e₁ data₁)
      (hanswer : TransferEngine.answer request e₁ data₁ = (reply, e₂, data₂)) :
      Reaches s e data (xs ++ [⟨request, reply⟩]) (next reply) e₂ data₂

/-- What is reached once the first call has been answered is reached from the start. -/
theorem Reaches.head {request : Call} {next : request.Reply → Session α} {reply : request.Reply}
    {e e₁ e' : σ} {data data₁ data' : Data} {xs : List Exchange} {s' : Session α}
    (hanswer : TransferEngine.answer request e data = (reply, e₁, data₁))
    (h : Reaches (next reply) e₁ data₁ xs s' e' data') :
  Reaches (.call request next) e data (⟨request, reply⟩ :: xs) s' e' data'
  := by
  induction h with
  | start => exact .answer .start hanswer
  | answer _ hanswer' ih => exact .answer ih hanswer'

/-- A session reaches its end. -/
theorem reaches_run (s : Session α) (e : σ) (data : Data) :
  Reaches s e data (s.transcript e data) (.done (s.run e data).1) (s.run e data).2.1
    (s.run e data).2.2
  := by
  induction s generalizing e data with
  | done result => exact .start
  | call request next ih => exact .head rfl (ih _ _ _)

/-- `I` says of the states of an engine what they keep of the uncollected transfers, and the engine
gives each call a reply that is due. -/
def KeepsBooks (w : Window) (I : σ → Data → List (Tag × Transfer) → Prop) : Prop :=
  ∀ {request : Call} {e e' : σ} {data data' : Data} {held : List (Tag × Transfer)}
    {reply : request.Reply},
    I e data held → TransferEngine.answer request e data = (reply, e', data') →
      Exchange.Due w held ⟨request, reply⟩ ∧ I e' data' (Exchange.leaves w held ⟨request, reply⟩)

/-- An engine that keeps books on one call after the other keeps books on a session. -/
theorem Reaches.allDue {w : Window} {I : σ → Data → List (Tag × Transfer) → Prop}
    (hI : KeepsBooks w I) {s s' : Session α} {e e' : σ} {data data' : Data} {xs : List Exchange}
    (hstart : I e data []) (h : Reaches s e data xs s' e' data') :
  AllDue w xs ∧ I e' data' (uncollected w xs)
  := by
  induction h with
  | start => exact ⟨.nil w, hstart⟩
  | answer _ hanswer ih =>
    obtain ⟨hdue, hheld⟩ := ih
    obtain ⟨hreply, hleaves⟩ := hI hheld hanswer
    rw [uncollected_concat]
    exact ⟨hdue.concat hreply, hleaves⟩

end Session

/-! ### The immediate engine -/

/-- Storage turns down a transfer. -/
def Transfer.TurnedDown (w : Window) (data : Data) (cause : TransferError) : Transfer → Prop
  | .get array records buffer => w.read data array records buffer.records = .error cause
  | .put records buffer => w.write data records buffer.records = .error cause

theorem Transfer.turnedDown_iff {w : Window} {data : Data} {cause : TransferError} {t : Transfer} :
  t.TurnedDown w data cause ↔ t.check w = .error cause
  := by
  cases t with
  | get array records buffer =>
    rw [TurnedDown, Window.read, check]
    split
    · simp [bind, Except.bind, throw, throwThe, MonadExceptOf.throw]
    · cases w.check records buffer.records.size <;> simp [bind, Except.bind, pure, Except.pure]
  | put records buffer =>
    rw [TurnedDown, Window.write, check]
    cases w.check records buffer.records.size <;> simp [bind, Except.bind, pure, Except.pure]

namespace Immediate

/-- A begin finds its tag busy, or is turned down, or has its transfer carried out. -/
theorem submit_cases (e : Immediate) (tag : Tag) (t : Transfer) (data : Data) :
  (e.slots.isPending tag = true ∧ e.submit tag t data = (.error (.tagBusy tag), e, data))
    ∨ (∃ cause, e.slots.get? tag = none ∧ t.check e.window = .error cause ∧
        e.submit tag t data = (.error cause, e, data))
    ∨ (e.slots.get? tag = none ∧ t.check e.window = .ok () ∧
        e.submit tag t data
          = (.ok (),
              { e with slots := e.slots.set tag (some (t.filled e.window data)) },
              t.stored e.window data))
  := by
  cases hbusy : e.slots.isPending tag with
  | true => exact .inl ⟨rfl, submit_of_isPending hbusy data⟩
  | false =>
    have hfree := TagSlots.get?_eq_none hbusy
    cases hcheck : t.check e.window with
    | error cause => exact .inr (.inl ⟨cause, hfree, rfl, submit_of_check_error hfree hcheck data⟩)
    | ok => exact .inr (.inr ⟨hfree, rfl, submit_of_check_ok hfree hcheck data⟩)

/-- A begin is all or nothing. It is refused just if its tag is busy, or else if storage turns it
down, and nothing has changed then. -/
structure AllOrNothing (e : Immediate) (data : Data) (tag : Tag) (t : Transfer) : Prop where
  refused_iff : ∀ cause, (e.submit tag t data).1 = .error cause
    ↔ (e.slots.isPending tag = true ∧ cause = .tagBusy tag) ∨
      (e.slots.isPending tag = false ∧ t.TurnedDown e.window data cause)
  unchanged : ∀ cause, (e.submit tag t data).1 = .error cause → (e.submit tag t data).2 = (e, data)

theorem allOrNothing (e : Immediate) (data : Data) (tag : Tag) (t : Transfer) :
  e.AllOrNothing data tag t
  := by
  rcases e.submit_cases tag t data with
    ⟨hbusy, hsubmit⟩ | ⟨cause', hfree, hcheck, hsubmit⟩ | ⟨hfree, hcheck, hsubmit⟩
  · constructor
    · intro cause
      simp [hsubmit, hbusy, eq_comm]
    · intro cause _
      rw [hsubmit]
  · have hpending : e.slots.isPending tag = false := by
      rw [TagSlots.isPending, hfree]
      rfl
    constructor
    · intro cause
      simp [hsubmit, hpending, Transfer.turnedDown_iff, hcheck]
    · intro cause _
      rw [hsubmit]
  · have hpending : e.slots.isPending tag = false := by
      rw [TagSlots.isPending, hfree]
      rfl
    constructor
    · intro cause
      simp [hsubmit, hpending, Transfer.turnedDown_iff, hcheck]
    · intro cause hcause
      rw [hsubmit] at hcause
      cases hcause

/-- The engine serves the window `w`, and holds the buffers with which the uncollected transfers
came out. -/
structure Owes (w : Window) (e : Immediate) (held : List (Tag × Transfer)) : Prop where
  window_eq : e.window = w
  kept : Kept (fun b t => ∃ d, (t.perform w d).1 = .ok b) e.slots held

theorem keepsBooks (w : Window) :
  Session.KeepsBooks w fun (e : Immediate) _ held => e.Owes w held
  := by
  rintro request e e' data data' held reply ⟨rfl, hkept⟩ hanswer
  cases request with
  | submit tag t =>
    have hreply : e.submit tag t data = (reply, e', data') := hanswer
    rcases e.submit_cases tag t data with
      ⟨-, hsubmit⟩ | ⟨cause, hfree, -, hsubmit⟩ | ⟨hfree, hcheck, hsubmit⟩
    · cases hsubmit.symm.trans hreply
      exact ⟨fun _ => rfl, rfl, hkept⟩
    · cases hsubmit.symm.trans hreply
      exact ⟨hkept.due_submit hfree _, rfl, hkept⟩
    · cases hsubmit.symm.trans hreply
      refine ⟨hkept.due_submit hfree _, rfl, hkept.begun hfree ⟨data, ?_⟩⟩
      rw [Transfer.perform_of_check_ok hcheck]
  | wait tag =>
    cases hanswer
    refine ⟨?_, rfl, hkept.freed tag⟩
    apply hkept.due_wait
    · intro hslot
      exact congrArg Except.ok hslot
    · rintro b hslot t ⟨d, hperform⟩
      right
      use d
      rw [hperform]
      exact congrArg Except.ok hslot
  | finish =>
    cases hanswer
    exact ⟨trivial, rfl, .empty _⟩

end Immediate

/-! ### The threaded engine -/

namespace Sequential

variable {s s' : Sequential} {tag : Tag} {w : Window} {held : List (Tag × Transfer)}

/-- The engine serves the window `w`, and remembers how the uncollected transfers went. -/
structure Owes (w : Window) (s : Sequential) (held : List (Tag × Transfer)) : Prop where
  window_eq : s.window = w
  kept : Kept (fun outcome t => ∃ d, (t.perform w d).1 = outcome) s.slots held

theorem wait_eq (s : Sequential) (tag : Tag) :
  s.wait tag
    = (((s.slots.get? tag).map fun outcome => outcome.map some).getD (.ok none),
        { s with slots := s.slots.set tag none })
  := by
  rw [wait, TagSlots.take]
  cases s.slots.get? tag with
  | none => rfl
  | some outcome => rfl

theorem Owes.wait (h : s.Owes w held) {reply : Except TransferError (Option Buffer)}
    (hwait : s.wait tag = (reply, s')) :
  Exchange.Due w held ⟨.wait tag, reply⟩ ∧ s'.Owes w (held.filter fun x => x.1 ≠ tag)
  := by
  rw [wait_eq] at hwait
  cases hwait
  refine ⟨?_, h.window_eq, h.kept.freed tag⟩
  apply h.kept.due_wait
  · intro hslot
    rw [hslot]
    rfl
  · rintro outcome hslot t ⟨d, rfl⟩
    right
    use d
    rw [hslot]
    rfl

/-- Waiting under one tag after the other leaves what a call that finishes leaves. -/
theorem Owes.waitEach {tags : List Tag} {reply : Except TransferError Unit}
    (h : s.Owes w (held.filter fun x => x.1 ∈ tags)) (hfinishing : Finishing w tags held)
    (hwait : s.waitEach tags = (reply, s')) :
  s'.Owes w (Exchange.leaves w held ⟨.finish, reply⟩)
  := by
  induction tags generalizing s with
  | nil =>
    cases hwait
    change s'.Owes w []
    simpa using h
  | cons tag tags ih =>
    rw [Sequential.waitEach] at hwait
    split at hwait
    · rename_i cause s₁ hfailed
      obtain ⟨hdue, howes⟩ := h.wait hfailed
      rw [hfinishing.filter_tail] at howes
      cases hwait
      rw [Exchange.leaves, hfinishing.leftBy_eq hdue]
      apply howes
    · rename_i b s₁ hcollected
      obtain ⟨hdue, howes⟩ := h.wait hcollected
      rw [hfinishing.filter_tail] at howes
      exact ih howes (hfinishing.collected hdue) hwait

theorem keepsBooks (w : Window) :
  Session.KeepsBooks w fun (s : Sequential) _ held => s.Owes w held
  := by
  rintro request s s' data data' held reply ⟨rfl, hkept⟩ hanswer
  cases request with
  | submit tag t =>
    have hsubmit : s.submit tag t data = (reply, s', data') := hanswer
    rw [Sequential.submit] at hsubmit
    split at hsubmit
    · cases hsubmit
      exact ⟨fun _ => rfl, rfl, hkept⟩
    · rename_i hbusy
      cases hsubmit
      have hfree := TagSlots.get?_eq_none (eq_false_of_ne_true hbusy)
      exact ⟨hkept.due_submit hfree _, rfl, hkept.begun hfree ⟨data, rfl⟩⟩
  | wait tag =>
    have hwait : s.wait tag = (reply, s') := by
      cases hanswer
      rfl
    exact Owes.wait ⟨rfl, hkept⟩ hwait
  | finish =>
    have hfinish : s.waitEach s.slots.pending = (reply, s') := by
      cases hanswer
      rfl
    obtain ⟨hfinishing, hpending⟩ := Finishing.of_kept (w := s.window) hkept
    refine ⟨trivial, Owes.waitEach ?_ hfinishing hfinish⟩
    rw [hpending]
    exact ⟨rfl, hkept⟩

end Sequential

/-- The reply to a begin of which nothing but its tag is looked at: it is refused just if the tag is
busy. -/
def TagSlots.beginReply {H : Type} (slots : TagSlots H) (tag : Tag) : Except TransferError Unit :=
  if slots.isPending tag then .error (.tagBusy tag) else .ok ()

namespace Threaded

/-- A begin is refused just if its tag is busy, and nothing has changed then. -/
structure AllOrNothing (e : Threaded) (tag : Tag) (t : Transfer) : Prop where
  reply_eq : (e.submit tag t).1 = e.slots.beginReply tag
  unchanged : ∀ cause, (e.submit tag t).1 = .error cause → (e.submit tag t).2 = e

theorem allOrNothing (e : Threaded) (tag : Tag) (t : Transfer) :
  e.AllOrNothing tag t
  := by
  by_cases hbusy : e.slots.isPending tag = true
  · constructor
    · rw [submit_of_isPending hbusy, TagSlots.beginReply, if_pos hbusy]
    · intro cause _
      rw [submit_of_isPending hbusy]
  · have hsubmit := submit_of_free (t := t) (TagSlots.get?_eq_none (eq_false_of_ne_true hbusy))
    constructor
    · rw [hsubmit, TagSlots.beginReply, if_neg hbusy]
    · intro cause hcause
      rw [hsubmit] at hcause
      cases hcause

/-- A threaded engine keeps what the sequential engine that is ahead of it does. -/
theorem keepsBooks (w : Window) :
  Session.KeepsBooks w fun (e : Threaded) data held =>
    ∃ s d, Ahead e data s d ∧ Sequential.Owes w s held
  := by
  rintro request e e' data data' held reply ⟨s, d, hahead, howes⟩ hanswer
  obtain ⟨reply', s', d', e₁, data₁, hsequential, hthreaded, hahead'⟩ := hahead.answer request
  rw [hanswer] at hthreaded
  cases hthreaded
  obtain ⟨hdue, howes'⟩ := Sequential.keepsBooks w howes hsequential
  exact ⟨hdue, s', d', hahead', howes'⟩

end Threaded

end ReplicaSum
