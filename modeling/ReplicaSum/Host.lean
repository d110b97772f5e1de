import ReplicaSum.Engine.Threaded
import ReplicaSum.ReduceError

/-!
# Hosts

What becomes of a reduction depends also on the machine that it runs on: whether there is memory for
the arenas and a pool of threads for the ranks, and how fast the copy workers are. A `Host` is such
a machine, as far as a reduction gets to see it. -/

namespace ReplicaSum

/-- A machine that a reduction runs on. -/
structure Host where
  /-- The number of threads of the pool that is there already. -/
  poolSize : Nat
  /-- Why there is no pool of a given number of threads, if there is none. -/
  poolFault : Nat → Option String
  /-- Whether the given buffer of the `k`-th arena of a reduction gets its memory, so many bytes. -/
  grants : Nat → ScratchPart → Nat → Bool
  /-- How long the client of the `k`-th rank would have to wait for the transfer with a ticket. -/
  delay : Nat → Nat → Delay

/-- Get a pool of so many threads. -/
def Host.pool (host : Host) (nThread : Nat) : Except ReduceError Unit :=
  match host.poolFault nThread with
  | none => .ok ()
  | some what => .error (.threadPool what)

end ReplicaSum
