import ReplicaSum.Transfer

/-!
# Sessions with a transfer engine

A client of a transfer engine submits transfers, waits for them and goes on according to the
answers it gets. A `Session` is such a client as a tree: it has ended with a result, or it
makes a call and has one continuation for each possible reply. An engine is a state machine
that answers calls, and running a session on an engine follows one branch of the tree.
-/

namespace ReplicaSum

/-- A call to a transfer engine. -/
inductive Call where
  /-- Begin a transfer under a tag. -/
  | submit (tag : Tag) (transfer : Transfer)
  /-- Wait for the transfer in flight under a tag, and take its buffer back. -/
  | wait (tag : Tag)
  /-- Wait for every transfer in flight. -/
  | finish

/-- What an engine replies to a call. Waiting under a tag with nothing in flight is answered
with `none`. -/
abbrev Call.Reply : Call → Type
  | .submit _ _ => Except TransferError Unit
  | .wait _ => Except TransferError (Option Buffer)
  | .finish => Except TransferError Unit

/-- A client that ends with a result of type `α`. -/
inductive Session (α : Type) where
  | done (result : α)
  | call (request : Call) (next : request.Reply → Session α)

/-- A facility that carries out transfers, as a state machine over its own states `σ` and the
data. -/
class TransferEngine (σ : Type) where
  answer : (request : Call) → σ → Data → request.Reply × σ × Data

namespace Session

variable {α β γ : Type}

/-- Go on with another session once the first one has ended. -/
protected def bind (s : Session α) (f : α → Session β) : Session β :=
  match s with
  | .done result => f result
  | .call request next => .call request fun reply => (next reply).bind f

instance : Monad Session where
  pure := .done
  bind := Session.bind

/-- The session that makes one call and ends with its reply. -/
def request (request : Call) : Session request.Reply := .call request .done

/-- Run a session on an engine: its result, and the engine and the data afterwards. -/
def run {σ : Type} [TransferEngine σ] (s : Session α) (engine : σ) (data : Data) :
    α × σ × Data :=
  match s with
  | .done result => (result, engine, data)
  | .call request next =>
    match TransferEngine.answer request engine data with
    | (reply, engine, data) => (next reply).run engine data

@[simp]
theorem pure_eq_done (result : α) :
  (pure result : Session α) = .done result
  := rfl

@[simp]
theorem done_bind (result : α) (f : α → Session β) :
  (Session.done result >>= f) = f result
  := rfl

@[simp]
theorem call_bind (request : Call) (next : request.Reply → Session α) (f : α → Session β) :
  (Session.call request next >>= f) = .call request fun reply => next reply >>= f
  := rfl

private theorem bind_done {α : Type} (s : Session α) :
  (s >>= Session.done) = s
  := by
  induction s with
  | done result => rfl
  | call request next ih => exact congrArg (Session.call request) (funext ih)

private theorem bind_assoc {α β γ : Type} (s : Session α) (f : α → Session β)
    (g : β → Session γ) :
  (s >>= f >>= g) = (s >>= fun result => f result >>= g)
  := by
  induction s with
  | done result => rfl
  | call request next ih => exact congrArg (Session.call request) (funext ih)

instance : LawfulMonad Session :=
  LawfulMonad.mk' Session bind_done (fun _ _ => rfl) bind_assoc

/-- A session runs up to its end, and its continuation runs from there. -/
theorem run_bind {σ : Type} [TransferEngine σ] (s : Session α) (f : α → Session β)
    (engine : σ) (data : Data) :
  (s >>= f).run engine data =
    match s.run engine data with
    | (result, engine, data) => (f result).run engine data
  := by
  induction s generalizing engine data with
  | done result => rfl
  | call request next ih => exact ih _ _ _

end Session

end ReplicaSum
