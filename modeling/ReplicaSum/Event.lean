import ReplicaSum.Config
import ReplicaSum.Partition

/-!
# Log events

What a reduction reports about its course. Events are values; whoever runs a reduction decides
what becomes of them.
-/

namespace ReplicaSum

/-- How much attention an event deserves. -/
inductive Level where
  | warn
  | debug
  | trace
deriving DecidableEq, Repr

/-- Something that a reduction reports. -/
inductive Event where
  /-- A reduction ends at once because there are fewer than two arrays. -/
  | nothingToCombine (nArray : Nat)
  /-- Some ranks own no records. -/
  | idleRanks (nIdle : Nat) (partition : Partition)
  /-- The ranks run one after another. -/
  | serialReduction (nArray nRecord nRank : Nat)
  /-- The ranks run at the same time. -/
  | parallelReduction (nArray nRecord nRank : Nat) (transfer : TransferMode)
  /-- A rank ends at once because it owns no records. -/
  | emptyRank
  /-- A rank starts. -/
  | rankStarted (nArray : Nat) (owned : Span) (transfer : TransferMode)
  /-- A copy worker ends. -/
  | workerEnded (owned : Span) (nServed : Nat)
deriving DecidableEq, Repr

namespace Event

/-- The level of an event. -/
def level : Event → Level
  | .idleRanks _ _ => .warn
  | .nothingToCombine _ => .debug
  | .serialReduction _ _ _ => .debug
  | .parallelReduction _ _ _ _ => .debug
  | .emptyRank => .trace
  | .rankStarted _ _ _ => .trace
  | .workerEnded _ _ => .trace

/-- The sentence that describes an event. -/
def message : Event → String
  | .nothingToCombine nArray =>
    s!"skipping reduction of {nArray} array(s), there is nothing to combine"
  | .idleRanks nIdle p =>
    s!"{nIdle} of {p.nRank} ranks own no records ({p.nRecord} records, "
      ++ s!"blocks of {p.blockLen}), so they will sit idle"
  | .serialReduction nArray nRecord nRank =>
    s!"serial reduction of {nArray} arrays x {nRecord} records with {nRank} ranks"
  | .parallelReduction nArray nRecord nRank transfer =>
    s!"parallel reduction of {nArray} arrays x {nRecord} records with {nRank} ranks "
      ++ s!"({transfer.text} transfers)"
  | .emptyRank => "rank with an empty range has nothing to do"
  | .rankStarted nArray owned transfer =>
    s!"reducing {nArray} arrays over records {owned.text} ({transfer.text} transfers)"
  | .workerEnded owned nServed =>
    s!"copy worker for records {owned.text} served {nServed} requests"

end Event

end ReplicaSum
