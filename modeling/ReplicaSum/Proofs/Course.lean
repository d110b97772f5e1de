import ReplicaSum.Reducer
import Mathlib.Tactic.Common

/-!
# The course of a session

What happens while a session runs on an engine: the calls that it makes, what holds whenever it
makes one (`Session.Along`), and the calls with their replies (`Session.transcript`). Two engines
that answer every call alike give a session the same course (`Session.lockstep`). For the programs
of a rank, which may end early, `RankM.Runs` is the relation between a program, the state in which
it starts, how it ends and the state that it leaves.
-/

namespace ReplicaSum

/-- A call and the reply to it. -/
structure Exchange where
  request : Call
  reply : request.Reply

namespace Session

variable {α β σ τ : Type} [TransferEngine σ] [TransferEngine τ]

/-- Every call that a session makes satisfies `P` in the state in which it is made. -/
def Along (P : Call → σ → Data → Prop) : Session α → σ → Data → Prop
  | .done _, _, _ => True
  | .call request next, engine, data =>
    P request engine data ∧
      match TransferEngine.answer request engine data with
      | (reply, engine, data) => (next reply).Along P engine data

/-- The calls of a session with their replies, in order. -/
def transcript : Session α → σ → Data → List Exchange
  | .done _, _, _ => []
  | .call request next, engine, data =>
    match TransferEngine.answer request engine data with
    | (reply, engine, data) => ⟨request, reply⟩ :: (next reply).transcript engine data

theorem along_bind {P : Call → σ → Data → Prop} {s : Session α} {f : α → Session β} {engine : σ}
    {data : Data} :
  (s >>= f).Along P engine data
    ↔ s.Along P engine data
      ∧ (f (s.run engine data).1).Along P (s.run engine data).2.1 (s.run engine data).2.2
  := by
  induction s generalizing engine data with
  | done result => exact ⟨fun h => ⟨trivial, h⟩, fun h => h.2⟩
  | call request next ih =>
    rw [call_bind, Along, Along, and_assoc]
    apply and_congr_right
    intro _
    apply ih _

theorem along_of_forall {P : Call → σ → Data → Prop}
    (hP : ∀ request engine data, P request engine data) (s : Session α) (engine : σ)
    (data : Data) :
  s.Along P engine data
  := by
  induction s generalizing engine data with
  | done result => trivial
  | call request next ih => exact ⟨hP request engine data, ih _ _ _⟩

/-- If two engines answer a call alike whenever their states are related and the call satisfies `P`,
and if the replies leave them in related states, then a session that makes only calls with
`P` runs alike on both. -/
theorem lockstep
    {R : σ → Data → τ → Data → Prop} {P : Call → σ → Data → Prop} {Q : Call → τ → Data → Prop}
    (hstep : ∀ {request : Call} {engine : σ} {data : Data} {engine' : τ} {data' : Data},
      R engine data engine' data' → P request engine data →
        Q request engine' data' ∧
        ∃ reply engine₁ data₁ engine₁' data₁',
          TransferEngine.answer request engine data = (reply, engine₁, data₁) ∧
          TransferEngine.answer request engine' data' = (reply, engine₁', data₁') ∧
          R engine₁ data₁ engine₁' data₁')
    (s : Session α) {engine : σ} {data : Data} {engine' : τ} {data' : Data}
    (hR : R engine data engine' data') (hP : s.Along P engine data) :
  s.Along Q engine' data'
    ∧ s.transcript engine data = s.transcript engine' data'
    ∧ ∃ result engine₁ data₁ engine₁' data₁',
        s.run engine data = (result, engine₁, data₁) ∧
        s.run engine' data' = (result, engine₁', data₁') ∧
        R engine₁ data₁ engine₁' data₁'
  := by
  induction s generalizing engine data engine' data' with
  | done result => exact ⟨trivial, rfl, result, engine, data, engine', data', rfl, rfl, hR⟩
  | call request next ih =>
    rw [Along] at hP
    obtain ⟨hQ, reply, engine₁, data₁, engine₁', data₁', hans, hans', hR₁⟩ := hstep hR hP.1
    rw [hans] at hP
    obtain ⟨halong, htranscript, hrun⟩ := ih reply hR₁ hP.2
    simp only [Along, transcript, run, hans, hans']
    exact ⟨⟨hQ, halong⟩, by rw [htranscript], hrun⟩

/-- A property of calls alone holds along a session if it holds of every call in the transcript. -/
theorem along_iff_transcript {P : Call → Prop} {s : Session α} {engine : σ} {data : Data} :
  s.Along (fun request _ _ => P request) engine data
    ↔ ∀ x ∈ s.transcript engine data, P x.request
  := by
  induction s generalizing engine data with
  | done result => simp [Along, transcript]
  | call request next ih => simp [Along, transcript, ih]

end Session

/-- Nothing is required of a call. -/
def Call.Any {σ : Type} (_ : Call) (_ : σ) (_ : Data) : Prop := True

namespace RankM

variable {α β σ : Type} [TransferEngine σ] {P : Call → σ → Data → Prop}
variable {engine engine₁ engine₂ : σ} {data data₁ data₂ : Data}

/-- Started in the state `engine` and `data`, a program makes only calls that satisfy `P`, ends with
`outcome`, and leaves the state `engine'` and `data'`. -/
structure Runs (P : Call → σ → Data → Prop) (m : RankM α) (engine : σ) (data : Data)
    (outcome : Except (Failure RankError) α) (engine' : σ) (data' : Data) : Prop where
  run_eq : Session.run m.run engine data = (outcome, engine', data')
  along : Session.Along P m.run engine data

namespace Runs

theorem pure (a : α) (engine : σ) (data : Data) :
  Runs P (pure a) engine data (.ok a) engine data
  := ⟨rfl, trivial⟩

/-- A program goes on where its first part has ended. -/
theorem bind {m : RankM α} {f : α → RankM β} {a : α} {outcome : Except (Failure RankError) β}
    (h : Runs P m engine data (.ok a) engine₁ data₁)
    (h' : Runs P (f a) engine₁ data₁ outcome engine₂ data₂) :
  Runs P (m >>= f) engine data outcome engine₂ data₂
  := by
  constructor
  · rw [ExceptT.run_bind, Session.run_bind, h.run_eq]
    apply h'.run_eq
  · rw [ExceptT.run_bind, Session.along_bind, h.run_eq]
    exact ⟨h.along, h'.along⟩

/-- A program goes on when what it asks for is answered without an error. -/
theorem ask {s : Session (Except TransferError α)} {a : α}
    (h : s.run engine data = (.ok a, engine₁, data₁)) (hP : s.Along P engine data) :
  Runs P (RankM.ask s) engine data (.ok a) engine₁ data₁
  := by
  constructor
  · rw [RankM.ask, ExceptT.run_mk, map_eq_pure_bind, Session.run_bind, h]
    rfl
  · rw [RankM.ask, ExceptT.run_mk, map_eq_pure_bind, Session.along_bind]
    exact ⟨hP, trivial⟩

/-- A program ends where its first part fails. -/
theorem bind_error {m : RankM α} {f : α → RankM β} {failure : Failure RankError}
    (h : Runs P m engine data (.error failure) engine₁ data₁) :
  Runs P (m >>= f) engine data (.error failure) engine₁ data₁
  := by
  constructor
  · rw [ExceptT.run_bind, Session.run_bind, h.run_eq]
    rfl
  · rw [ExceptT.run_bind, Session.along_bind, h.run_eq]
    exact ⟨h.along, trivial⟩

/-- A program fails when what it asks for is answered with an error. -/
theorem ask_error {s : Session (Except TransferError α)} {cause : TransferError}
    (h : s.run engine data = (.error cause, engine₁, data₁)) (hP : s.Along P engine data) :
  Runs P (RankM.ask s) engine data (.error (.error (.transfer cause))) engine₁ data₁
  := by
  constructor
  · rw [RankM.ask, ExceptT.run_mk, map_eq_pure_bind, Session.run_bind, h]
    rfl
  · rw [RankM.ask, ExceptT.run_mk, map_eq_pure_bind, Session.along_bind]
    exact ⟨hP, trivial⟩

/-- How a program ends does not depend on what is known about its calls. -/
theorem anyCall {m : RankM α} {outcome : Except (Failure RankError) α}
    (h : Runs P m engine data outcome engine₁ data₁) :
  Runs Call.Any m engine data outcome engine₁ data₁
  := ⟨h.run_eq, Session.along_of_forall (fun _ _ _ => trivial) _ _ _⟩

/-- A result that is insisted on is there. -/
theorem insist {result : Except Violation α} {a : α} (h : result = .ok a) (engine : σ)
    (data : Data) :
  Runs P (RankM.insist result) engine data (.ok a) engine data
  := by
  subst h
  apply pure a engine data

end Runs

end RankM

end ReplicaSum
