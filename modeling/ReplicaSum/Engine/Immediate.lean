import ReplicaSum.Session
import ReplicaSum.TagSlots

/-!
# The immediate engine

A transfer engine without concurrency: a transfer is carried out inside of the call that
submits it, and its buffer then lies in the slot of its tag until somebody waits for it.
-/

namespace ReplicaSum

/-- The state of an immediate engine: the window it serves, and the buffers of the transfers
that nobody has waited for yet. -/
structure Immediate where
  window : Window
  slots : TagSlots Buffer

namespace Immediate

/-- An engine with nothing in flight. -/
def new (w : Window) : Immediate := ⟨w, .empty⟩

/-- Carry out a transfer under a free tag, and keep its buffer. -/
def submit (engine : Immediate) (tag : Tag) (transfer : Transfer) (data : Data) :
    Except TransferError Unit × Immediate × Data :=
  if engine.slots.isPending tag then (.error (.tagBusy tag), engine, data)
  else
    match transfer.perform engine.window data with
    | (.error cause, data) => (.error cause, engine, data)
    | (.ok buffer, data) =>
      match engine.slots.issue tag buffer with
      | .error cause => (.error cause, engine, data)
      | .ok slots => (.ok (), { engine with slots }, data)

/-- Hand out the buffer kept under a tag. -/
def wait (engine : Immediate) (tag : Tag) : Option Buffer × Immediate :=
  match engine.slots.take tag with
  | (buffer, slots) => (buffer, { engine with slots })

/-- Every transfer is complete, so only the buffers are let go of. -/
def finish (engine : Immediate) : Immediate := { engine with slots := .empty }

instance : TransferEngine Immediate where
  answer
    | .submit tag transfer, engine, data => engine.submit tag transfer data
    | .wait tag, engine, data =>
      match engine.wait tag with
      | (buffer, engine) => (.ok buffer, engine, data)
    | .finish, engine, data => (.ok (), engine.finish, data)

end Immediate

end ReplicaSum
