import ReplicaSum.Session
import ReplicaSum.TagSlots

/-!
# The threaded engine

A transfer engine with a copy worker. Submitting a transfer only appends it to a queue, from
which the worker takes one transfer after the other, carries it out and announces how it
went. The `k`-th transfer that was submitted gets the `k`-th announcement, so its number serves
as the ticket that lies in the slot of its tag until somebody waits for it.

The worker and the client take their steps independently of each other. `Threaded.serve` is one
step of the worker; the client submits and collects. Here the worker falls behind as far as it
can: it serves the queue when the client waits for one of its transfers, just up to that one,
and to the end when the engine is closed.

A client may have a limit to how long it waits. How long the worker takes is up to the machine, so
it is given along with the limit. -/

namespace ReplicaSum

/-- What a client meets that waits for a transfer which the worker hasn't served yet. -/
structure Delay where
  /-- The number of milliseconds until the worker announces how the transfer went. -/
  millis : Nat
  /-- The number of transfers that the worker gets to serve if the client doesn't wait so long. -/
  served : Nat

/-- How a client waits. -/
structure Pacing where
  /-- How many milliseconds it waits for a transfer at most, if there is a limit. -/
  limit : Option Nat
  /-- How long it would have to wait for the transfer with a given ticket. -/
  delay : Nat → Delay

namespace Pacing

/-- Waiting for as long as it takes. -/
def unlimited : Pacing := ⟨none, fun _ => ⟨0, 0⟩⟩

/-- Whether the client gives up on the transfer with a given ticket before it is served. -/
def givesUp (p : Pacing) (ticket : Nat) : Bool :=
  match p.limit with
  | none => false
  | some limit => limit < (p.delay ticket).millis

end Pacing

/-- The state of a threaded engine. -/
structure Threaded where
  /-- The window that the worker serves. -/
  window : Window
  /-- The tickets of the transfers that nobody has waited for yet. -/
  slots : TagSlots Nat
  /-- The submitted transfers that the worker hasn't taken yet, the oldest first. -/
  queue : List Transfer
  /-- How the transfers went that the worker has served, the oldest first. -/
  served : Array (Except TransferError Buffer)
  /-- How the client waits. -/
  pacing : Pacing

namespace Threaded

/-- An engine with nothing in flight, whose worker is about to start and whose client waits in the
given way. -/
def paced (w : Window) (pacing : Pacing) : Threaded := ⟨w, .empty, [], #[], pacing⟩

/-- An engine with nothing in flight, whose worker is about to start. Its client waits for as long
as it takes. -/
def new (w : Window) : Threaded := paced w .unlimited

/-- One step of the worker: it serves the oldest transfer in the queue. -/
def serve (engine : Threaded) (data : Data) : Threaded × Data :=
  match engine.queue with
  | [] => (engine, data)
  | transfer :: queue =>
    match transfer.perform engine.window data with
    | (outcome, data) => ({ engine with queue, served := engine.served.push outcome }, data)

/-- Several steps of the worker. -/
def serveMany : Nat → Threaded → Data → Threaded × Data
  | 0, engine, data => (engine, data)
  | k + 1, engine, data =>
    match engine.serve data with
    | (engine, data) => serveMany k engine data

/-- Queue a transfer under a free tag. -/
def submit (engine : Threaded) (tag : Tag) (transfer : Transfer) :
    Except TransferError Unit × Threaded :=
  match engine.slots.issue tag (engine.served.size + engine.queue.length) with
  | .error cause => (.error cause, engine)
  | .ok slots => (.ok (), { engine with slots, queue := engine.queue ++ [transfer] })

/-- The announcement for a ticket that was issued under a tag. Without one, the worker is
gone. -/
def announcement (engine : Threaded) (tag : Tag) (ticket : Nat) : Except TransferError Buffer :=
  match engine.served[ticket]? with
  | some outcome => outcome
  | none => .error (.disconnected tag)

/-- The number of steps that the worker has to take before the transfer under a tag is served. -/
def lag (engine : Threaded) (tag : Tag) : Nat :=
  match engine.slots.get? tag with
  | some ticket => ticket + 1 - engine.served.size
  | none => 0

/-- Free the slot of a tag and look up how the transfer went that it belonged to. The client gets
to do so once the worker doesn't lag behind any more. -/
def collect (engine : Threaded) (tag : Tag) :
    Except TransferError (Option Buffer) × Threaded :=
  match engine.slots.take tag with
  | (none, _) => (.ok none, engine)
  | (some ticket, slots) => ((engine.announcement tag ticket).map some, { engine with slots })

/-- Wait until the worker has served the transfer under a tag, and collect it. -/
def await (engine : Threaded) (tag : Tag) (data : Data) :
    Except TransferError (Option Buffer) × Threaded × Data :=
  match serveMany (engine.lag tag) engine data with
  | (engine, data) =>
    match engine.collect tag with
    | (reply, engine) => (reply, engine, data)

/-- Stop waiting for a transfer that the worker hasn't served yet, and free the slot of its tag.
Nobody gets to know how it went. -/
def abandon (engine : Threaded) (tag : Tag) (served : Nat) (data : Data) :
    Except TransferError (Option Buffer) × Threaded × Data :=
  match serveMany (min served (engine.lag tag - 1)) engine data with
  | (engine, data) =>
    (.error (.timedOut tag), { engine with slots := engine.slots.set tag none }, data)

/-- What the client meets when it waits under a tag, if that makes it give up. -/
def givesUp (engine : Threaded) (tag : Tag) : Option Delay :=
  match engine.slots.get? tag with
  | none => none
  | some ticket =>
    if 0 < engine.lag tag ∧ engine.pacing.givesUp ticket then some (engine.pacing.delay ticket)
    else none

/-- Wait under a tag, unless that takes longer than it may. -/
def wait (engine : Threaded) (tag : Tag) (data : Data) :
    Except TransferError (Option Buffer) × Threaded × Data :=
  match engine.givesUp tag with
  | none => engine.await tag data
  | some delay => engine.abandon tag delay.served data

/-- Wait under each of the given tags, up to the first one whose transfer failed. -/
def waitEach : List Tag → Threaded → Data → Except TransferError Unit × Threaded × Data
  | [], engine, data => (.ok (), engine, data)
  | tag :: tags, engine, data =>
    match engine.wait tag data with
    | (.error cause, engine, data) => (.error cause, engine, data)
    | (.ok _, engine, data) => waitEach tags engine data

/-- Wait for the transfers in flight, in increasing order of their tags. -/
def finish (engine : Threaded) (data : Data) : Except TransferError Unit × Threaded × Data :=
  waitEach engine.slots.pending engine data

/-- Let the worker serve what is left in the queue. -/
def close (engine : Threaded) (data : Data) : Threaded × Data :=
  serveMany engine.queue.length engine data

/-- The number of transfers that the worker has served. -/
def nServed (engine : Threaded) : Nat := engine.served.size

instance : TransferEngine Threaded where
  answer
    | .submit tag transfer, engine, data =>
      match engine.submit tag transfer with
      | (reply, engine) => (reply, engine, data)
    | .wait tag, engine, data => engine.wait tag data
    | .finish, engine, data => engine.finish data

end Threaded

end ReplicaSum
