import ReplicaSum.Scratch

/-!
# Configurations

The settings of a reduction. Each of them has a default.
-/

namespace ReplicaSum

/-- How records move between the data and the local buffers of a rank. -/
inductive TransferMode where
  /-- Every transfer is carried out inside of the call that begins it. -/
  | immediate
  /-- Every rank has a copy worker, so that transfers overlap with the arithmetic. -/
  | threaded
deriving DecidableEq, Repr

namespace TransferMode

/-- The name of a mode in log messages. -/
def text : TransferMode → String
  | .immediate => "Immediate"
  | .threaded => "Threaded"

end TransferMode

/-- The settings of a reduction that don't depend on the data. -/
structure Config where
  /-- The number of records of a block. -/
  blockLen : Nat := defaultBlockLen
  /-- The number of ranks, if it isn't left to the size of the thread pool. -/
  nPipeline : Option Nat := none
  transfer : TransferMode := .threaded
  /-- How many milliseconds a rank may wait for a single transfer before it gives up, if there is a
  limit. -/
  waitTimeoutMs : Option Nat := none
deriving DecidableEq, Repr

/-- The number of ranks of a reduction on a machine with a thread pool of a given size. -/
def Config.nRank (c : Config) (poolSize : Nat) : Nat := c.nPipeline.getD poolSize

end ReplicaSum
