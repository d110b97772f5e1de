import ReplicaSum.Reduction
import ReplicaSum.Proofs.Worker

/-!
# Ranks side by side

A rank as a process that takes its steps one at a time. With an immediate engine, a step answers a
call, and a transfer is carried out in it. With a threaded engine, a step is one of the client or
one of the worker, and a transfer is carried out in the latter. A step sees and changes nothing
outside of the footprint of the window of its rank, so that ranks with disjoint footprints that
share the data end as each of them ends alone, whatever the order is in which they take their steps.
-/

namespace ReplicaSum

/-- What the program of a rank ends with. -/
abbrev RankOutcome := Except (Failure RankError) RankReport

/-- A rank that takes its steps one at a time. -/
inductive RankProcess where
  /-- It has nothing to do. -/
  | ended (result : Except (Failure ReduceError) RankReport)
  /-- It uses an immediate engine. -/
  | immediate (engine : Immediate) (session : Session RankOutcome)
  /-- It uses a threaded engine. -/
  | threaded (worked : Worked RankOutcome)

namespace RankProcess

/-- The result of a process, once it has one. A threaded engine is let go of once its worker has
served everything. -/
def result? : RankProcess → Option (Except (Failure ReduceError) RankReport)
  | .ended result => some result
  | .immediate _ (.done outcome) => some (outcome.mapError (·.map ReduceError.ofRankError))
  | .threaded ⟨.running (.done outcome), engine, _⟩ =>
    if engine.queue.isEmpty then some (outcome.mapError (·.map ReduceError.ofRankError)) else none
  | _ => none

/-- The steps of a process. -/
inductive Step : RankProcess × Data → RankProcess × Data → Prop where
  | immediate {e e' : Immediate} {data data' : Data} {request : Call} {reply : request.Reply}
      {next : request.Reply → Session RankOutcome}
      (h : TransferEngine.answer request e data = (reply, e', data')) :
      Step (.immediate e (.call request next), data) (.immediate e' (next reply), data')
  | threaded {worked worked' : Worked RankOutcome} {data data' : Data}
      (h : Worked.Step (worked, data) (worked', data')) :
      Step (.threaded worked, data) (.threaded worked', data')

/-- A process that accesses the data only through the window `w`. -/
def Serves (w : Window) : RankProcess → Prop
  | .ended _ => True
  | .immediate e _ => e.window = w
  | .threaded worked => worked.engine.window = w

end RankProcess

/-! ### Locality -/

namespace Immediate

variable {e e' : Immediate} {d d' f : Data} {request : Call} {reply : request.Reply}

/-- Under a free tag, a transfer is carried out, and its buffer is kept if there is one. -/
theorem submit_of_free {tag : Tag} (h : e.slots.get? tag = none) (t : Transfer) (d : Data) :
  e.submit tag t d
    = match (t.perform e.window d).1 with
      | .error cause => (.error cause, e, (t.perform e.window d).2)
      | .ok buffer =>
        (.ok (), { e with slots := e.slots.set tag (some buffer) }, (t.perform e.window d).2)
  := by
  rw [submit, if_neg (by simp [TagSlots.isPending, h])]
  cases t.perform e.window d with
  | mk outcome d' =>
    cases outcome with
    | error cause => rfl
    | ok buffer => simp only [TagSlots.issue_eq_ok h]

/-- An answer keeps the window and changes nothing outside of its footprint. -/
theorem answer_frame (hw : 0 < e.window.nArray)
    (h : TransferEngine.answer request e d = (reply, e', d')) :
  e'.window = e.window ∧ AgreeOn (fun i => ¬ e.window.Footprint i) d' d
  := by
  cases request with
  | submit tag t =>
    have h : e.submit tag t d = (reply, e', d') := h
    by_cases hslot : e.slots.get? tag = none
    · have hframe := Transfer.perform_frame hw t d
      rw [submit_of_free hslot] at h
      split at h
      · cases h
        exact ⟨rfl, hframe⟩
      · cases h
        exact ⟨rfl, hframe⟩
    · rw [submit_of_isPending (Option.isSome_iff_ne_none.mpr hslot)] at h
      cases h
      exact ⟨rfl, .refl _ d⟩
  | wait tag =>
    cases h
    exact ⟨rfl, .refl _ d⟩
  | finish =>
    cases h
    exact ⟨rfl, .refl _ d⟩

/-- An answer depends on nothing outside of the footprint. -/
theorem answer_congr (hagree : AgreeOn e.window.Footprint d f)
    (h : TransferEngine.answer request e d = (reply, e', d')) :
  ∃ f', TransferEngine.answer request e f = (reply, e', f') ∧ AgreeOn e.window.Footprint d' f'
  := by
  cases request with
  | submit tag t =>
    have h : e.submit tag t d = (reply, e', d') := h
    by_cases hslot : e.slots.get? tag = none
    · obtain ⟨houtcome, hdata⟩ := Transfer.perform_congr t hagree
      use (t.perform e.window f).2
      have hsubmit := submit_of_free hslot t f
      rw [submit_of_free hslot, houtcome] at h
      split at h
      · rename_i cause hcause
        cases h
        rw [hcause] at hsubmit
        exact ⟨hsubmit, hdata⟩
      · rename_i buffer hbuffer
        cases h
        rw [hbuffer] at hsubmit
        exact ⟨hsubmit, hdata⟩
    · have hbusy : e.slots.isPending tag = true := Option.isSome_iff_ne_none.mpr hslot
      rw [submit_of_isPending hbusy] at h
      cases h
      exact ⟨f, submit_of_isPending hbusy f, hagree⟩
  | wait tag =>
    cases h
    exact ⟨f, rfl, hagree⟩
  | finish =>
    cases h
    exact ⟨f, rfl, hagree⟩

end Immediate

namespace Worked

variable {α : Type} {c c' : Client α} {e e' : Threaded} {xs : List Exchange} {p q : Worked α}
variable {d d' f : Data}

/-- The client doesn't change the window of its engine. -/
theorem ClientStep.window_eq (h : ClientStep c e c' e' xs) :
  e'.window = e.window
  := by
  have hcollect : ∀ tag, (e.collect tag).2.window = e.window := by
    intro tag
    rw [Threaded.collect]
    split <;> rfl
  cases h with
  | @submit tag t _ _ _ _ h =>
    have hsubmit : (e.submit tag t).2.window = e.window := by
      rw [Threaded.submit]
      split <;> rfl
    rw [h] at hsubmit
    apply hsubmit
  | @wait tag _ _ _ _ _ h =>
    have hcollect := hcollect tag
    rw [h] at hcollect
    apply hcollect
  | giveUp => rfl
  | givenUp => rfl
  | finish => rfl
  | @collected tag _ _ _ _ _ _ h =>
    have hcollect := hcollect tag
    rw [h] at hcollect
    apply hcollect
  | @failed tag _ _ _ _ _ _ h =>
    have hcollect := hcollect tag
    rw [h] at hcollect
    apply hcollect
  | finished => rfl

/-- A step keeps the window and changes nothing outside of its footprint. -/
theorem Step.frame (hw : 0 < p.engine.window.nArray) (h : Step (p, d) (q, d')) :
  q.engine.window = p.engine.window ∧ AgreeOn (fun i => ¬ p.engine.window.Footprint i) d' d
  := by
  cases h with
  | client h => exact ⟨h.window_eq, .refl _ d⟩
  | @worker c e e' transcript _ _ hqueue h =>
    have hwindow := Threaded.window_serve e d
    rw [h] at hwindow
    use hwindow
    rw [Threaded.serve] at h
    split at h
    · cases h
      exact .refl _ d
    · rename_i t queue _
      cases h
      apply Transfer.perform_frame hw t d

/-- A step depends on nothing outside of the footprint. -/
theorem Step.congr (h : Step (p, d) (q, d'))
    (hagree : AgreeOn p.engine.window.Footprint d f) :
  ∃ f', Step (p, f) (q, f') ∧ AgreeOn p.engine.window.Footprint d' f'
  := by
  cases h with
  | client h => exact ⟨f, .client h, hagree⟩
  | @worker c e e' transcript _ _ hqueue h =>
    cases hq : e.queue with
    | nil => exact absurd hq hqueue
    | cons t queue =>
      obtain ⟨houtcome, hdata⟩ := Transfer.perform_congr t hagree
      have hserve : ∀ d, e.serve d = ({ e with
          queue, served := e.served.push (t.perform e.window d).1 },
          (t.perform e.window d).2) := by
        intro d
        rw [Threaded.serve, hq]
      rw [hserve] at h
      cases h
      use (t.perform e.window f).2
      constructor
      · apply Step.worker hqueue
        rw [hserve, houtcome]
      · apply hdata

end Worked

namespace RankProcess

variable {w : Window} {p q : RankProcess} {d d' f : Data}

/-- A process keeps accessing the data through the same window, and a step changes nothing outside
of its footprint. -/
theorem Step.frame (hw : 0 < w.nArray) (hp : p.Serves w) (h : Step (p, d) (q, d')) :
  q.Serves w ∧ AgreeOn (fun i => ¬ w.Footprint i) d' d
  := by
  cases h with
  | immediate h =>
    obtain rfl := hp
    apply Immediate.answer_frame hw h
  | threaded h =>
    obtain rfl := hp
    apply h.frame hw

/-- A step of a process depends on nothing outside of the footprint of its window. -/
theorem Step.congr (hp : p.Serves w) (h : Step (p, d) (q, d'))
    (hagree : AgreeOn w.Footprint d f) :
  ∃ f', Step (p, f) (q, f') ∧ AgreeOn w.Footprint d' f'
  := by
  cases h with
  | immediate h =>
    obtain rfl := hp
    obtain ⟨f', hanswer, hagree'⟩ := Immediate.answer_congr hagree h
    exact ⟨f', .immediate hanswer, hagree'⟩
  | threaded h =>
    obtain rfl := hp
    obtain ⟨f', hstep, hagree'⟩ := h.congr hagree
    exact ⟨f', .threaded hstep, hagree'⟩

/-! ### Interleaving -/

section Interleaving

variable {ι : Type}

/-- One of several processes that share the data takes a step. -/
def Interleave (st st' : (ι → RankProcess) × Data) : Prop :=
  ∃ i, Step (st.1 i, st.2) (st'.1 i, st'.2) ∧ ∀ j, j ≠ i → st'.1 j = st.1 j

/-- Each process is followed on a copy of the data of its own, which agrees with the shared data on
the footprint of the process. -/
structure Follows (w : ι → Window) (data : Data) (st : (ι → RankProcess) × Data)
    (x : ι → RankProcess × Data) : Prop where
  process_eq : ∀ i, (x i).1 = st.1 i
  serves : ∀ i, (st.1 i).Serves (w i)
  agree : ∀ i, AgreeOn (w i).Footprint st.2 (x i).2
  rest : AgreeOn (fun k => ∀ i, ¬ (w i).Footprint k) st.2 data

variable {w : ι → Window} {data : Data} {st st' : (ι → RankProcess) × Data}
variable {x y : ι → RankProcess × Data}

theorem Follows.eq_mk (h : Follows w data st x) (i : ι) :
  x i = (st.1 i, (x i).2)
  := by
  rw [← h.process_eq i]

/-- What one process has done on the shared data has been followed once it has been done on its
copy. -/
theorem Follows.update [DecidableEq ι] (h : Follows w data st x)
    (hdisjoint : ∀ i j, i ≠ j → ∀ k, (w i).Footprint k → ¬ (w j).Footprint k) {i : ι} {d' : Data}
    (hothers : ∀ j, j ≠ i → st'.1 j = st.1 j) (hserves : (st'.1 i).Serves (w i))
    (hframe : AgreeOn (fun k => ¬ (w i).Footprint k) st'.2 st.2)
    (hagree : AgreeOn (w i).Footprint st'.2 d') :
  Follows w data st' (Function.update x i (st'.1 i, d'))
  := by
  constructor
  case process_eq =>
    intro j
    rcases eq_or_ne j i with rfl | hj
    · rw [Function.update_self]
    · rw [Function.update_of_ne hj, hothers j hj, h.process_eq j]
  case serves =>
    intro j
    rcases eq_or_ne j i with rfl | hj
    · apply hserves
    · rw [hothers j hj]
      apply h.serves j
  case agree =>
    intro j
    rcases eq_or_ne j i with rfl | hj
    · rw [Function.update_self]
      apply hagree
    · rw [Function.update_of_ne hj]
      apply AgreeOn.trans _ (h.agree j)
      apply hframe.mono
      intro k hk hki
      apply hdisjoint i j (Ne.symm hj) k hki hk
  case rest =>
    apply AgreeOn.trans _ h.rest
    apply hframe.mono
    intro k hk
    apply hk i

/-- A step of a process on the shared data is a step on its own copy. -/
theorem Follows.step [DecidableEq ι] (h : Follows w data st x) (hw : ∀ i, 0 < (w i).nArray)
    (hdisjoint : ∀ i j, i ≠ j → ∀ k, (w i).Footprint k → ¬ (w j).Footprint k)
    (hst : Interleave st st') :
  ∃ y, Inevitably.StepOne Step x y ∧ Follows w data st' y
  := by
  obtain ⟨i, hstep, hothers⟩ := hst
  obtain ⟨hserves, hframe⟩ := hstep.frame (hw i) (h.serves i)
  obtain ⟨d', hstep', hagree⟩ := hstep.congr (h.serves i) (h.agree i)
  use Function.update x i (st'.1 i, d')
  constructor
  · use i
    constructor
    · rw [Function.update_self, h.eq_mk i]
      apply hstep'
    · intro j hj
      apply Function.update_of_ne hj _ x
  · apply h.update hdisjoint hothers hserves hframe hagree

/-- A process that can take a step on its own copy of the data can take one on the shared data. -/
theorem Follows.exists_interleave [DecidableEq ι] (h : Follows w data st x)
    (hxy : Inevitably.StepOne Step x y) :
  ∃ st', Interleave st st'
  := by
  obtain ⟨i, hstep, -⟩ := hxy
  rw [h.eq_mk i] at hstep
  obtain ⟨d', hstep', -⟩ := Step.congr (q := (y i).1) (h.serves i) hstep (h.agree i).symm
  use (Function.update st.1 i (y i).1, d'), i
  constructor
  · simp only [Function.update_self]
    apply hstep'
  · intro j hj
    apply Function.update_of_ne hj _ st.1

/-- Processes that share the data but access disjoint parts of it end, whatever the order of their
steps is, as each of them ends alone, and leave the rest of the data as it was. -/
theorem inevitably_interleave [LinearOrder ι] [Finite ι] (hw : ∀ i, 0 < (w i).nArray)
    (hdisjoint : ∀ i j, i ≠ j → ∀ k, (w i).Footprint k → ¬ (w j).Footprint k)
    {ps : ι → RankProcess} (hps : ∀ i, (ps i).Serves (w i))
    {Q : ι → RankProcess × Data → Prop} (h : ∀ i, Inevitably Step (Q i) (ps i, data)) :
  Inevitably Interleave
    (fun st => ∃ ds : ι → Data, (∀ i, Q i (st.1 i, ds i)) ∧
      (∀ i, AgreeOn (w i).Footprint st.2 (ds i)) ∧
      AgreeOn (fun k => ∀ i, ¬ (w i).Footprint k) st.2 data)
    (ps, data)
  := by
  have hstart : Follows w data (ps, data) (fun i => (ps i, data)) :=
    ⟨fun _ => rfl, hps, fun i => .refl _ data, .refl _ data⟩
  have hends := Inevitably.simulate (R := Follows w data)
    (fun st st' x hx hst => hx.step hw hdisjoint hst)
    (fun st x y hx hxy => hx.exists_interleave hxy) (Inevitably.family h) hstart
  apply hends.mono
  rintro st ⟨x, hx, hQ⟩
  use fun i => (x i).2
  constructor
  · intro i
    rw [← hx.process_eq i]
    apply hQ i
  · exact ⟨hx.agree, hx.rest⟩

end Interleaving

end RankProcess

end ReplicaSum
