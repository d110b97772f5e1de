import ReplicaSum.Arena
import ReplicaSum.Engine.Immediate
import ReplicaSum.Event
import ReplicaSum.Host

/-!
# Running a rank

A reduction acts on a slice of records and logs events. `ReduceM` is the type of such actions:
they may fail, and what they did to the data and to the log before they failed stays done.
`Rank.run` is the action of a single rank, which leaves alone all records outside of its window.
-/

namespace ReplicaSum

/-- What a reduction acts on: the records, and the events logged so far, the oldest first. -/
structure World where
  data : Data
  events : List Event

/-- An action on the records, which logs events and may fail. -/
abbrev ReduceM := ExceptT (Failure ReduceError) (StateM World)

namespace ReduceM

/-- Log an event. -/
def log (e : Event) : ReduceM Unit :=
  modify fun world => { world with events := world.events ++ [e] }

/-- Fail with an error. -/
def refuse {α : Type} (cause : ReduceError) : ReduceM α := throw (.error cause)

/-- Go on with a result, or fail with its error. -/
def check {α : Type} (result : Except ReduceError α) : ReduceM α :=
  match result with
  | .ok a => return a
  | .error cause => refuse cause

/-- Go on with a result, or fail because a precondition is broken. -/
def insist {α : Type} (result : Except Violation α) : ReduceM α :=
  match result with
  | .ok a => return a
  | .error cause => throw (.violation cause)

/-- Go on with a result about the layout, or fail as it does. -/
def ofLayout {α : Type} (result : Except (Failure LayoutError) α) : ReduceM α :=
  match result with
  | .ok a => return a
  | .error failure => throw (failure.map ReduceError.layout)

/-- Go on with the result of a rank, or fail as it did. -/
def ofRank {α : Type} (result : Except (Failure RankError) α) : ReduceM α :=
  match result with
  | .ok a => return a
  | .error failure => throw (failure.map ReduceError.ofRankError)

/-- Go on whether an action fails or not. -/
def attempt {α : Type} (action : ReduceM α) :
    ReduceM (Except (Failure ReduceError) α) :=
  ExceptT.mk (.ok <$> action.run)

/-- Go on with the results of several actions, or fail as the first of them that did. -/
def ofAttempts {α : Type} : List (Except (Failure ReduceError) α) → ReduceM (List α)
  | [] => return []
  | .error failure :: _ => throw failure
  | .ok a :: rest => return a :: (← ofAttempts rest)

end ReduceM

/-- What a rank works with. -/
structure Station where
  window : Window
  arena : Arena
  /-- How long the rank waits for the transfer with a given ticket, if it has a copy worker. -/
  delay : Nat → Delay

namespace Rank

/-- What a rank does with its engine: it reduces its records and waits for the last block to be
stored. -/
def session (range : Span) (nArray : Nat) (scratch : Scratch) : RankM RankReport := do
  let report ← reduceRank range nArray scratch
  RankM.finish
  return report

/-- Run a session on an immediate engine. -/
def runImmediate {α : Type} (w : Window) (s : RankM α) : ReduceM α := do
  let world ← get
  match s.run.run (Immediate.new w) world.data with
  | (result, _, data) =>
    set { world with data }
    ReduceM.ofRank result

/-- Run a session on a threaded engine. Its worker serves what is left when the session has ended,
however it ended. -/
def runThreaded {α : Type} (w : Window) (pacing : Pacing) (s : RankM α) : ReduceM α := do
  let world ← get
  match s.run.run (Threaded.paced w pacing) world.data with
  | (result, engine, data) =>
    match engine.close data with
    | (engine, data) =>
      set { data, events := world.events ++ [.workerEnded w.owned engine.nServed] : World }
      ReduceM.ofRank result

/-- Reduce the records of the window of a station. If there is a limit, no wait for a transfer lasts
more than so many milliseconds. -/
def run (s : Station) (nArray : Nat) (transfer : TransferMode) (limit : Option Nat) :
    ReduceM RankReport := do
  let owned := s.window.owned
  if owned.isEmpty then
    ReduceM.log .emptyRank
    return .empty owned
  else
    ReduceM.log (.rankStarted nArray owned transfer)
    let scratch ← ReduceM.check s.arena.scratch
    match transfer with
    | .immediate => runImmediate s.window (session owned nArray scratch)
    | .threaded => runThreaded s.window ⟨limit, s.delay⟩ (session owned nArray scratch)

end Rank

end ReplicaSum
