import ReplicaSum.Proofs.Actions
import ReplicaSum.Proofs.Discipline

/-!
# Clients that give up

A client may have a limit to how long it waits, and its copy worker may be too slow for that. Then a
wait fails, and a rank breaks off where the first call fails. So, whatever its limit and however
slow its worker, a rank does what it does with all the time it needs, or it ends because it has
given up on a transfer. Until then it has stored some of its blocks, from the first one on, and
these have been reduced; the records of the others are as they were.
-/

namespace ReplicaSum

/-- The reply to a call that fails. -/
def Call.failed (cause : TransferError) : (request : Call) → request.Reply
  | .submit _ _ => .error cause
  | .wait _ => .error cause
  | .finish => .error cause

/-! ### Programs that break off -/

namespace RankM

variable {α β : Type} {m : RankM α} {f : α → RankM β}

/-- A session that ends with the error of the first call that fails. -/
inductive Relays : Session (Except (Failure RankError) α) → Prop where
  | done (result : Except (Failure RankError) α) : Relays (.done result)
  | call {request : Call} {next : request.Reply → Session (Except (Failure RankError) α)}
      (hfailed : ∀ cause, next (request.failed cause) = .done (.error (.error (.transfer cause))))
      (hnext : ∀ reply, Relays (next reply)) : Relays (.call request next)

theorem relays_pure (a : α) :
  Relays (pure a : RankM α).run
  := .done (.ok a)

theorem relays_insist (result : Except Violation α) :
  Relays (insist result).run
  := by
  cases result with
  | ok a => exact .done (.ok a)
  | error cause => exact .done (.error (.violation cause))

theorem relays_insistHeld (tag : Tag) (buffer : Option Buffer) :
  Relays (insistHeld tag buffer).run
  := by
  cases buffer with
  | some b => exact .done (.ok b)
  | none => exact .done (.error (.error (.transfer (.tagBusy tag))))

theorem relays_insistPending (tag : Tag) (buffer : Option Buffer) :
  Relays (insistPending tag buffer).run
  := by
  cases buffer with
  | some b => exact .done (.ok b)
  | none => exact .done (.error (.error (.transfer (.notPending tag))))

theorem relays_beginGet (tag : Tag) (array : Nat) (records : Span) (buffer : Buffer) :
  Relays (beginGet tag array records buffer).run
  := .call (fun _ => rfl) fun _ => .done _

theorem relays_beginPut (tag : Tag) (records : Span) (buffer : Buffer) :
  Relays (beginPut tag records buffer).run
  := .call (fun _ => rfl) fun _ => .done _

theorem relays_wait (tag : Tag) :
  Relays (wait tag).run
  := .call (fun _ => rfl) fun _ => .done _

theorem relays_finish :
  Relays finish.run
  := .call (fun _ => rfl) fun _ => .done _

/-- A program goes on with another one only if no call has failed before. -/
theorem Relays.bind (h : Relays m.run) (h' : ∀ a, Relays (f a).run) :
  Relays (m >>= f).run
  := by
  rw [ExceptT.run_bind]
  generalize m.run = session at h
  induction h with
  | done result =>
    cases result with
    | ok a => exact h' a
    | error failure => exact .done (.error failure)
  | call hfailed _ ih =>
    refine .call (fun cause => ?_) ih
    rw [hfailed]
    rfl

end RankM

namespace Reducer

open RankM

theorem relays_prime (first : Span) (arrays : List (Fin maxArray)) (slots : Slots) :
  Relays (prime first arrays slots).run
  := by
  induction arrays generalizing slots with
  | nil => exact relays_pure slots
  | cons a rest ih =>
    apply (relays_insistHeld _ _).bind
    intro buffer
    exact (relays_beginGet _ _ _ _).bind fun _ => ih _

theorem relays_refill (a : Fin maxArray) (next : Option Span) (buffer : Buffer) (slots : Slots) :
  Relays (refill a next buffer slots).run
  := by
  cases next with
  | none => exact relays_pure _
  | some records => exact (relays_beginGet _ _ _ _).bind fun _ => relays_pure slots

theorem relays_consume (len : Nat) (next : Option Span) (arrays : List (Fin maxArray))
    (sum : BlockSum) (slots : Slots) :
  Relays (consume len next arrays sum slots).run
  := by
  induction arrays generalizing sum slots with
  | nil => exact relays_pure (sum, slots)
  | cons a rest ih =>
    apply (relays_wait _).bind
    intro reply
    apply (relays_insistPending _ reply).bind
    intro buffer
    apply (relays_insist _).bind
    intro block
    apply (relays_insist _).bind
    intro sum
    apply (relays_refill a next buffer slots).bind
    intro slots
    apply ih sum slots

theorem relays_emit (tag : Tag) (records : Span) (sum : BlockSum) (slots : Slots) :
  Relays (emit tag records sum slots).run
  := by
  apply (relays_wait tag).bind
  intro reply
  apply (relays_insistPending tag _).bind
  intro buffer
  apply (relays_insist _).bind
  intro filled
  exact (relays_beginPut tag records filled).bind fun _ => relays_pure _

theorem relays_reduceBlocks (arrays : List (Fin maxArray)) (outTag : Tag) (blocks : List Span)
    (sum : BlockSum) (slots : Slots) (report : RankReport) :
  Relays (reduceBlocks arrays outTag blocks sum slots report).run
  := by
  induction blocks generalizing sum slots report with
  | nil => exact relays_pure report
  | cons records rest ih =>
    apply (relays_consume _ _ _ _ _).bind
    intro consumed
    exact (relays_emit _ _ _ _).bind fun slots => ih _ slots _

theorem relays_reduceAll (arrays : List (Fin maxArray)) (outTag : Tag) (blocks : List Span)
    (sum : BlockSum) (slots : Slots) (report : RankReport) :
  Relays (reduceAll arrays outTag blocks sum slots report).run
  := by
  cases blocks with
  | nil => exact relays_pure report
  | cons first rest =>
    exact (relays_prime _ _ _).bind fun slots => relays_reduceBlocks _ _ _ _ slots _

end Reducer

/-- A rank breaks off where the first of its calls fails. -/
theorem Rank.relays_session (range : Span) (nArray : Nat) (scratch : Scratch) :
  RankM.Relays (session range nArray scratch).run
  := by
  have hreduce : RankM.Relays (reduceRank range nArray scratch).run := by
    rw [reduceRank]
    split
    · apply Reducer.relays_reduceAll
    · exact .done _
  apply hreduce.bind
  intro report
  exact RankM.relays_finish.bind fun _ => RankM.relays_pure report

/-! ### Engines whose client gives up -/

namespace Threaded

/-- The engine with a client that waits for as long as it takes. -/
def patiently (engine : Threaded) : Threaded := { engine with pacing := .unlimited }

theorem serve_patiently (e : Threaded) (data : Data) :
  e.patiently.serve data = ((e.serve data).1.patiently, (e.serve data).2)
  := by
  obtain ⟨window, slots, queue, served, pacing⟩ := e
  cases queue <;> rfl

/-- What the worker does doesn't depend on how long the client waits. -/
theorem serveMany_patiently (k : Nat) (e : Threaded) (data : Data) :
  serveMany k e.patiently data = ((serveMany k e data).1.patiently, (serveMany k e data).2)
  := by
  induction k generalizing e data with
  | zero => rfl
  | succ k ih => rw [serveMany_succ, serve_patiently, ih, serveMany_succ]

theorem close_patiently (e : Threaded) (data : Data) :
  e.patiently.close data = ((e.close data).1.patiently, (e.close data).2)
  := serveMany_patiently e.queue.length e data

theorem submit_patiently (e : Threaded) (tag : Tag) (t : Transfer) :
  e.patiently.submit tag t = ((e.submit tag t).1, (e.submit tag t).2.patiently)
  := by
  rw [submit, submit]
  cases hissue : e.slots.issue tag (e.served.size + e.queue.length) with
  | error cause => simp only [patiently, hissue]
  | ok slots => simp only [patiently, hissue]

theorem collect_patiently (e : Threaded) (tag : Tag) :
  e.patiently.collect tag = ((e.collect tag).1, (e.collect tag).2.patiently)
  := by
  obtain ⟨window, slots, queue, served, pacing⟩ := e
  rw [collect, collect]
  simp only [patiently]
  cases slots.take tag with
  | mk ticket slots' => cases ticket <;> rfl

theorem await_patiently (e : Threaded) (tag : Tag) (data : Data) :
  e.patiently.await tag data
    = ((e.await tag data).1, (e.await tag data).2.1.patiently, (e.await tag data).2.2)
  := by
  have hlag : e.patiently.lag tag = e.lag tag := rfl
  simp only [await, hlag, serveMany_patiently, collect_patiently]

end Threaded

/-- A session passes through a slice if the data is this slice when the session makes one of its
calls, or when it ends. -/
def Session.Passes {α σ : Type} [TransferEngine σ] : Session α → σ → Data → Data → Prop
  | .done _, _, data, d => d = data
  | .call request next, engine, data, d =>
    d = data ∨
      match TransferEngine.answer request engine data with
      | (reply, engine, data) => (next reply).Passes engine data d

namespace Ahead

variable {e : Threaded} {data : Data} {s : Sequential} {d : Data}

/-- When a client gives up on a transfer, its worker nevertheless serves what is in the queue. -/
theorem abandon (h : Ahead e.patiently data s d) (tag : Tag) (served : Nat) :
  ∃ e' data', e.abandon tag served data = (.error (.timedOut tag), e', data') ∧
    (e'.close data').2 = d
  := by
  have hserved := (h.serveMany (min served (e.lag tag - 1))).data_eq
  rw [Threaded.serveMany_patiently, Threaded.close_patiently] at hserved
  refine ⟨_, _, rfl, ?_⟩
  rw [Threaded.close_slots]
  apply hserved

/-- The client gets the reply that it gets if it waits for as long as it takes, or gives up. -/
theorem wait_or_timedOut (h : Ahead e.patiently data s d) (tag : Tag) :
  (∃ reply s' e' data', s.wait tag = (reply, s') ∧ e.wait tag data = (reply, e', data') ∧
      Ahead e'.patiently data' s' d)
    ∨ ∃ e' data', e.wait tag data = (.error (.timedOut tag), e', data') ∧ (e'.close data').2 = d
  := by
  rw [Threaded.wait]
  cases hgivesUp : e.givesUp tag with
  | none =>
    left
    obtain ⟨reply, s', e', data', hwait, hwait', hahead⟩ := h.wait tag
    rw [Threaded.wait_of_patient h.patient, Threaded.await_patiently] at hwait'
    obtain ⟨rfl, rfl, rfl⟩ := by simpa using hwait'
    exact ⟨_, s', _, _, hwait, rfl, hahead⟩
  | some delay =>
    right
    apply h.abandon tag delay.served

/-- A client that waits for no time at all gives up on a worker that takes a millisecond. -/
example (w : Window) (buffer : Buffer) (data : Data) :
  ∃ e', Session.run (do
      let _ ← Session.request (.submit ⟨0⟩ (.get 0 ⟨0, 1⟩ buffer))
      Session.request (.wait ⟨0⟩)) (Threaded.paced w ⟨some 0, fun _ => ⟨1, 0⟩⟩) data
    = ((.error (.timedOut ⟨0⟩) : Except TransferError (Option Buffer)), e', data)
  := ⟨_, rfl⟩

theorem waitEach_or_timedOut (tags : List Tag) (h : Ahead e.patiently data s d) :
  (∃ reply s' e' data', Sequential.waitEach tags s = (reply, s') ∧
      Threaded.waitEach tags e data = (reply, e', data') ∧ Ahead e'.patiently data' s' d)
    ∨ ∃ tag e' data', Threaded.waitEach tags e data = (.error (.timedOut tag), e', data') ∧
      (e'.close data').2 = d
  := by
  induction tags generalizing e data s with
  | nil => exact .inl ⟨.ok (), s, e, data, rfl, rfl, h⟩
  | cons tag tags ih =>
    rcases h.wait_or_timedOut tag with ⟨reply, s₁, e₁, data₁, hwait, hwait', h₁⟩ | hgivenUp
    · rw [Sequential.waitEach, hwait, Threaded.waitEach, hwait']
      cases reply with
      | error cause => exact .inl ⟨.error cause, s₁, e₁, data₁, rfl, rfl, h₁⟩
      | ok buffer => exact ih h₁
    · obtain ⟨e', data', hwait, hdata⟩ := hgivenUp
      right
      use tag, e', data'
      constructor
      · rw [Threaded.waitEach, hwait]
      · apply hdata

/-- An engine answers a call like the sequential one, unless its client gives up. -/
theorem answer_or_timedOut (h : Ahead e.patiently data s d) (request : Call) :
  (∃ reply s' d' e' data',
      TransferEngine.answer request s d = (reply, s', d') ∧
      TransferEngine.answer request e data = (reply, e', data') ∧ Ahead e'.patiently data' s' d')
    ∨ ∃ tag e' data',
      TransferEngine.answer request e data = (request.failed (.timedOut tag), e', data') ∧
      (e'.close data').2 = d
  := by
  cases request with
  | submit tag t =>
    left
    obtain ⟨s', d', hsubmit, hahead⟩ := h.submit tag t
    rw [Threaded.submit_patiently] at hsubmit hahead
    exact ⟨_, s', d', _, data, hsubmit, rfl, hahead⟩
  | wait tag =>
    rcases h.wait_or_timedOut tag with ⟨reply, s', e', data', hwait, hwait', hahead⟩ | hgivenUp
    · left
      use reply, s', d, e', data'
      constructor
      · simp only [TransferEngine.answer, hwait]
      · exact ⟨hwait', hahead⟩
    · obtain ⟨e', data', hwait, hdata⟩ := hgivenUp
      exact .inr ⟨tag, e', data', hwait, hdata⟩
  | finish =>
    rcases h.waitEach_or_timedOut e.slots.pending
      with ⟨reply, s', e', data', hfinish, hfinish', hahead⟩ | hgivenUp
    · left
      have hpending : s.slots.pending = e.slots.pending := h.pending_eq
      use reply, s', d, e', data'
      constructor
      · simp only [TransferEngine.answer, Sequential.finish, hpending, hfinish]
      · exact ⟨hfinish', hahead⟩
    · obtain ⟨tag, e', data', hfinish, hdata⟩ := hgivenUp
      exact .inr ⟨tag, e', data', hfinish, hdata⟩

end Ahead

/-- A session that breaks off where a call fails ends as it does on the sequential engine, or
because its client has given up. In the end the worker has then made a slice of the data that the
session passes through on the sequential engine. -/
theorem RankM.Relays.run_or_timedOut {α : Type} {session : Session (Except (Failure RankError) α)}
    {e : Threaded} {data : Data} {s : Sequential} {d : Data} (hrelays : Relays session)
    (h : Ahead e.patiently data s d) :
  (∃ e' data', session.run e data = ((session.run s d).1, e', data') ∧
      (e'.close data').2 = (session.run s d).2.2)
    ∨ ∃ tag e' data',
      session.run e data = (.error (.error (.transfer (.timedOut tag))), e', data') ∧
      session.Passes s d (e'.close data').2
  := by
  induction hrelays generalizing e data s d with
  | done result =>
    left
    use e, data, rfl
    have hdata := h.data_eq
    rw [Threaded.close_patiently] at hdata
    apply hdata
  | @call request next hfailed _ ih =>
    rcases h.answer_or_timedOut request
      with ⟨reply, s', d', e', data', hanswer, hanswer', hahead⟩ | hgivenUp
    · simp only [Session.run, Session.Passes, hanswer, hanswer']
      apply (ih reply hahead).imp_right
      rintro ⟨tag, e₁, data₁, hrun, hpasses⟩
      exact ⟨tag, e₁, data₁, hrun, .inr hpasses⟩
    · obtain ⟨tag, e', data', hanswer, hdata⟩ := hgivenUp
      right
      use tag, e', data'
      constructor
      · simp only [Session.run, hanswer, hfailed]
      · exact .inl hdata

/-! ### What a session has stored -/

/-- A transfer changes only the records that it writes. -/
theorem Transfer.agreeOn_perform (w : Window) (t : Transfer) (d : Data) :
  AgreeOn (· ∉ t.writes) (t.perform w d).2 d
  := by
  use size_perform w d t
  intro i hi
  cases hcheck : t.check w with
  | error cause => rw [perform_of_check_error hcheck]
  | ok =>
    rw [perform_of_check_ok hcheck]
    apply getElem?_stored_of_not_mem hcheck hi

/-- A call changes only the records that it stores. -/
theorem Sequential.agreeOn_answer (request : Call) (s : Sequential) (d : Data) :
  AgreeOn (fun i => ∀ b, request.outline.stored = some b → i ∉ b)
    (TransferEngine.answer request s d).2.2 d
  := by
  cases request with
  | wait tag => exact .refl _ d
  | finish => exact .refl _ d
  | submit tag t =>
    simp only [TransferEngine.answer, submit]
    split
    · exact .refl _ d
    · apply (t.agreeOn_perform s.window d).mono
      intro i hi
      cases t with
      | get =>
        simp only [Transfer.writes, Span.mem_iff]
        omega
      | put records buffer => exact hi records rfl

namespace Session

variable {α : Type} {session : Session α} {request : Call} {next : request.Reply → Session α}
variable {reply : request.Reply} {s s' : Sequential} {d d' : Data}

/-- The blocks that a session stores, in order. -/
def stores (session : Session α) (s : Sequential) (d : Data) : List Span :=
  (session.outlines s d).filterMap Call.Outline.stored

theorem stores_call (h : TransferEngine.answer request s d = (reply, s', d')) :
  (call request next).stores s d = request.outline.stored.toList ++ (next reply).stores s' d'
  := by
  have houtlines : (call request next).outlines s d
      = request.outline :: (next reply).outlines s' d' := by
    simp only [outlines, transcript, h, List.map_cons]
  rw [stores, houtlines]
  cases hstored : request.outline.stored with
  | none =>
    rw [List.filterMap_cons_none hstored]
    rfl
  | some b =>
    rw [List.filterMap_cons_some hstored]
    rfl

/-- A call of a session and what comes after it change only what is stored then. -/
theorem agreeOn_call {blocks : List Span} {final : Data}
    (h : TransferEngine.answer request s d = (reply, s', d'))
    (hblocks : AgreeOn (fun i => ∀ b ∈ blocks, i ∉ b) final d') :
  AgreeOn (fun i => ∀ b ∈ request.outline.stored.toList ++ blocks, i ∉ b) final d
  := by
  have hanswer := Sequential.agreeOn_answer request s d
  rw [h] at hanswer
  apply AgreeOn.trans (hblocks.mono ?_) (hanswer.mono ?_)
  · intro i hi b hb
    apply hi b (List.mem_append_right _ hb)
  · intro i hi b hb
    apply hi b (List.mem_append_left _ (Option.mem_toList.mpr hb))

/-- A session changes only the records that it stores. -/
theorem agreeOn_run (session : Session α) (s : Sequential) (d : Data) :
  AgreeOn (fun i => ∀ b ∈ session.stores s d, i ∉ b) (session.run s d).2.2 d
  := by
  induction session generalizing s d with
  | done result => exact .refl _ d
  | call request next ih =>
    rcases hanswer : TransferEngine.answer request s d with ⟨reply, s', d'⟩
    rw [stores_call hanswer]
    simp only [run, hanswer]
    apply agreeOn_call hanswer (ih reply s' d')

/-- Where a session passes through a slice, it has stored its first blocks, and the others are still
to be stored. -/
theorem Passes.exists_stored {passed : Data} (h : session.Passes s d passed) :
  ∃ stored rest, session.stores s d = stored ++ rest ∧
    AgreeOn (fun i => ∀ b ∈ stored, i ∉ b) passed d ∧
    AgreeOn (fun i => ∀ b ∈ rest, i ∉ b) (session.run s d).2.2 passed
  := by
  induction session generalizing s d with
  | done result =>
    obtain rfl : passed = d := h
    exact ⟨[], [], rfl, .refl _ passed, .refl _ passed⟩
  | call request next ih =>
    rcases hanswer : TransferEngine.answer request s d with ⟨reply, s', d'⟩
    simp only [Passes, hanswer] at h
    rcases h with rfl | h
    · use [], (call request next).stores s passed, rfl, .refl _ passed
      apply agreeOn_run
    · obtain ⟨stored, rest, hstores, hstored, hrest⟩ := ih reply h
      use request.outline.stored.toList ++ stored, rest
      constructor
      · rw [stores_call hanswer, hstores, List.append_assoc]
      constructor
      · apply agreeOn_call hanswer hstored
      · simp only [run, hanswer]
        apply hrest

end Session

namespace Rank

open Reducer
open ReduceM (Ends)

variable {w : Window} {range : Span} {nArray : Nat} {data passed : Data}

/-- A rank stores the blocks of its range in order. -/
theorem stores_session (scratch : Scratch) (hfits : w.Fits data.size) (h₂ : 2 ≤ nArray)
    (hn : nArray ≤ w.nArray) (hrange : ∀ i ∈ range, i ∈ w.owned) :
  (session range nArray scratch).run.stores (.new w) data
    = (range.blocks scratch.blockLen scratch.isBlockLen.1).toList
  := by
  obtain ⟨data', hruns, -⟩ := runs_session scratch hfits h₂ hn hrange
  have hvalid := Session.along_sequential _ hruns.immediate.1
  obtain ⟨-, htranscript, -⟩ := Session.run_sequential_eq_immediate _ hvalid
  obtain ⟨e₁, data₁, hmakes⟩ := makes_reduceRank (Immediate.obliging w) range h₂
    (Nat.le_trans hn hfits.nArray_le) scratch (Immediate.keeps_new w data)
    (fun tag _ => TagSlots.get?_empty tag) (check_transfers scratch hrange hn)
  have houtlines := Session.outlines_bind (reduceRank range nArray scratch).run
    (fun outcome => ExceptT.bindCont (fun report => do RankM.finish; return report) outcome)
    (Immediate.new w) data
  rw [hmakes.outlines_eq, hmakes.runs.run_eq] at houtlines
  have hstored := filterMap_stored_calls (arrays nArray)
    (.output ⟨nArray, Nat.lt_succ_of_le (Nat.le_trans hn hfits.nArray_le)⟩)
    (range.blocks scratch.blockLen scratch.isBlockLen.1).toList
  rw [Session.stores, Session.outlines, htranscript]
  refine (congrArg (List.filterMap Call.Outline.stored) houtlines).trans ?_
  rw [List.filterMap_append, hstored]
  apply List.append_nil

/-- Where a rank passes through a slice, its first blocks have been reduced, and nothing else has
changed. -/
theorem reduced_of_passes {scratch : Scratch} (hfits : w.Fits data.size) (h₂ : 2 ≤ nArray)
    (hn : nArray ≤ w.nArray) (hrange : ∀ i ∈ range, i ∈ w.owned)
    (h : (session range nArray scratch).run.Passes (Sequential.new w) data passed) :
  ∃ stored, stored <+: (range.blocks scratch.blockLen scratch.isBlockLen.1).toList ∧
    Reduced w.stride nArray (fun i => ∃ b ∈ stored, i ∈ b) data passed
  := by
  obtain ⟨data', hruns, hreduced⟩ := runs_session scratch hfits h₂ hn hrange
  obtain ⟨-, hdata⟩ := hruns.sequential
  obtain ⟨stored, rest, hstores, hkept, hlater⟩ := h.exists_stored
  rw [stores_session scratch hfits h₂ hn hrange] at hstores
  rw [hdata] at hlater
  have htiles := range.blocks_tiles (h := scratch.isBlockLen.1)
  rw [hstores] at htiles
  obtain ⟨mid, hfirst, hrest⟩ := htiles.of_append
  use stored, ⟨rest, hstores.symm⟩
  constructor
  · apply hkept.size_eq
  · rintro i ⟨b, hb, hi⟩ hlt
    have hmem := Span.mem_iff.mp hi
    obtain ⟨hstart, -, hstop⟩ := hfirst.bounds hb
    have hmid := hrest.le
    have hi' : i ∈ range := Span.mem_iff.mpr (by omega)
    -- None of the later blocks has the record, so the value that it has now is its last one.
    have hbefore : ∀ b' ∈ rest, i ∉ b' := by
      intro b' hb' hi
      have := (hrest.bounds hb').1
      have := (Span.mem_iff.mp hi).1
      omega
    rw [← hlater.getElem?_eq i hbefore, hreduced.summed i hi' hlt]
  · intro i hi
    apply hkept.getElem?_eq i
    intro b hb hmem
    apply hi ⟨b, hb, hmem⟩

/-- Whatever the limit is, and however long the worker takes, a rank reduces the records of its
window, or it gives up on a transfer. Then some of its blocks have been reduced, from the first one
on, and nothing else has changed. It doesn't give up if its worker is in time. -/
theorem ends_run_or_timedOut {s : Station} {world : World} {blockLen : Nat}
    (transfer : TransferMode) (limit : Option Nat) (hfits : s.window.Fits world.data.size)
    (h₂ : 2 ≤ nArray) (hn : nArray ≤ s.window.nArray) (hb : IsBlockLen blockLen)
    (hroom : s.arena.HasRoom blockLen) :
  (∃ world', Ends (run s nArray transfer limit) world
        (.ok (.complete s.window.owned blockLen)) world' ∧
      Reduced s.window.stride nArray (· ∈ s.window.owned) world.data world'.data)
    ∨ ¬ transfer.InTime limit s.delay ∧ ∃ tag world' stored,
      Ends (run s nArray transfer limit) world (.error (.error (.transfer (.timedOut tag))))
        world' ∧
      stored <+: (s.window.owned.blocks blockLen hb.1).toList ∧
      Reduced s.window.stride nArray (fun i => ∃ b ∈ stored, i ∈ b) world.data world'.data
  := by
  by_cases hready : transfer.InTime limit s.delay
  · exact .inl (ends_run hfits h₂ hn hb ⟨hroom, hready⟩)
  by_cases hempty : s.window.owned.isEmpty = true
  · left
    refine ⟨_, ends_run_of_isEmpty hempty hb limit, ?_⟩
    apply Reduced.of_forall_not
    apply Span.not_mem_of_isEmpty hempty
  cases transfer with
  | immediate => exact absurd nofun hready
  | threaded =>
    obtain ⟨scratch, hscratch, rfl⟩ := hroom.scratch_eq_ok hb
    have hrange : ∀ i ∈ s.window.owned, i ∈ s.window.owned := fun _ hi => hi
    let started : World :=
      { world with events := world.events ++ [.rankStarted nArray s.window.owned .threaded] }
    have hahead : Ahead (Threaded.paced s.window ⟨limit, s.delay⟩).patiently world.data
        (.new s.window) world.data := Ahead.new s.window world.data
    rcases (relays_session s.window.owned nArray scratch).run_or_timedOut hahead
      with ⟨e, data, hrun, hdata⟩ | ⟨tag, e, data, hrun, hpasses⟩
    · left
      obtain ⟨data', hruns, hreduced⟩ := runs_session scratch hfits h₂ hn hrange
      obtain ⟨hreport, hdata'⟩ := hruns.sequential
      rw [hreport] at hrun
      refine ⟨_, ends_run_of_session hempty hscratch (ends_runThreaded started hrun), ?_⟩
      rw [hdata, hdata']
      apply hreduced
    · right
      obtain ⟨stored, hbegins, hreduced⟩ := reduced_of_passes hfits h₂ hn hrange hpasses
      have hends : Ends (run s nArray .threaded limit) world _ _ :=
        ends_run_of_session hempty hscratch (ends_runThreaded started hrun)
      exact ⟨hready, tag, _, stored, hends, hbegins, hreduced⟩

end Rank

end ReplicaSum
