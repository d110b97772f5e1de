import ReplicaSum.Context
import ReplicaSum.Rank

/-!
# Reductions

There are three ways to reduce the arrays of a context into array `0`. An executor runs all ranks
of a view. `reduceAccumulators` makes the view and the executor itself. `reducePipeline` runs a
single rank, for callers that schedule the ranks on their own.

A serial executor runs one rank after another and stops at the first one that fails. A parallel one
starts all of them, so that each of them runs up to its own end; here they take their steps in rank
order, which is one of the orders that there are.
-/

namespace ReplicaSum

/-- One view for each rank of a partition of a view. Ranks without records are reported. -/
def splitViews (v : View) (blockLen nRank : Nat) : ReduceM (List View) := do
  let p := Partition.mk v.nRecord blockLen nRank
  if 0 < p.nIdle then
    ReduceM.log (.idleRanks p.nIdle p)
  ReduceM.insist (v.splitRanks blockLen nRank)

/-- One window for each rank of a partition of a view. -/
def splitRanks (v : View) (blockLen nRank : Nat) : ReduceM (List Window) := do
  let views ← splitViews v blockLen nRank
  ReduceM.ofLayout (views.mapM View.openWindow)

/-- One view for each of `nRank` ranks of a reduction. A context without arrays has no views. -/
def Context.rankViews (c : Context) (nRank : Nat) : ReduceM (List View) := do
  ReduceM.check (checkRank 0 nRank)
  if c.nArray = 0 then return []
  else
    let world ← get
    let v ← ReduceM.check (c.view world.data.size)
    splitViews v c.blockLen nRank

/-- How an executor schedules its ranks. -/
inductive Schedule where
  /-- One rank after another. -/
  | serial
  /-- All ranks at the same time. -/
  | parallel
deriving DecidableEq, Repr

/-- Something that runs all ranks of a reduction. -/
structure Executor where
  schedule : Schedule
  nRank : Nat
  transfer : TransferMode
  /-- How many milliseconds a rank may wait for a single transfer, if there is a limit. -/
  limit : Option Nat
  nRank_pos : 0 < nRank

namespace Executor

/-- Get what a schedule needs on a machine: a parallel one needs a thread for every rank. -/
def prepare (schedule : Schedule) (host : Host) (nRank : Nat) : Except ReduceError Unit :=
  match schedule with
  | .serial => .ok ()
  | .parallel => host.pool nRank

/-- An executor with the transfer mode that suits its schedule and with no limit to its waits. -/
def new (schedule : Schedule) (host : Host) (nRank : Nat) (h : 0 < nRank) :
    Except ReduceError Executor := do
  prepare schedule host nRank
  return {
    schedule := schedule
    nRank := nRank
    nRank_pos := h
    limit := none
    transfer :=
      match schedule with
      | .serial => .immediate
      | .parallel => .threaded }

/-- The executor with another transfer mode. -/
def withTransfer (e : Executor) (transfer : TransferMode) : Executor := { e with transfer }

/-- The executor with another limit to its waits. -/
def withTimeout (e : Executor) (limit : Option Nat) : Executor := { e with limit }

/-- The executor that a configuration describes. -/
def ofConfig (schedule : Schedule) (host : Host) (config : Config) :
    Except ReduceError Executor :=
  if h : 0 < config.nRank host.poolSize then do
    let e ← new schedule host (config.nRank host.poolSize) h
    return (e.withTransfer config.transfer).withTimeout config.waitTimeoutMs
  else .error (.bounds .nPipeline 0 1 largestSigned)

/-- The event that reports the start of a reduction. -/
def startEvent (e : Executor) (c : Context) : Event :=
  match e.schedule with
  | .serial => .serialReduction c.nArray c.nRecord e.nRank
  | .parallel => .parallelReduction c.nArray c.nRecord e.nRank e.transfer

/-- An arena for each rank. If the ranks run one after another, they all have the same one. -/
def arenas (e : Executor) (host : Host) (blockLen : Nat) : Except ReduceError (List Arena) :=
  match e.schedule with
  | .serial => do
    let arena ← Arena.new (host.grants 0) blockLen
    return List.replicate e.nRank arena
  | .parallel => (List.range e.nRank).mapM fun k => Arena.new (host.grants k) blockLen

/-- The stations of the ranks, in rank order. -/
def stations (host : Host) (windows : List Window) (arenas : List Arena) : List Station :=
  (windows.zip arenas).mapIdx fun k x => ⟨x.1, x.2, host.delay k⟩

/-- Run a rank at each station, one after another. The first one that fails is the last one. -/
def runInTurn (e : Executor) (nArray : Nat) : List Station → ReduceM (List RankReport)
  | [] => return []
  | s :: rest => do
    let report ← Rank.run s nArray e.transfer e.limit
    return report :: (← e.runInTurn nArray rest)

/-- Run a rank at each station, whatever becomes of the others. -/
def runToEnds (e : Executor) (nArray : Nat) :
    List Station → ReduceM (List (Except (Failure ReduceError) RankReport))
  | [] => return []
  | s :: rest => do
    let ended ← ReduceM.attempt (Rank.run s nArray e.transfer e.limit)
    return ended :: (← e.runToEnds nArray rest)

/-- Run a rank at each station. -/
def runRanks (e : Executor) (nArray : Nat) (stations : List Station) :
    ReduceM (List RankReport) :=
  match e.schedule with
  | .serial => e.runInTurn nArray stations
  | .parallel => do ReduceM.ofAttempts (← e.runToEnds nArray stations)

/-- Reduce the arrays that a view shows. -/
def driveReduce (e : Executor) (host : Host) (v : View) (c : Context) :
    ReduceM (List RankReport) := do
  if c.isNoop then return []
  else if v.nArray ≠ c.nArray ∨ v.owned ≠ ⟨0, c.nRecord⟩ then
    ReduceM.refuse (.layout .contextMismatch)
  else
    ReduceM.log (e.startEvent c)
    let arenas ← ReduceM.check (e.arenas host c.blockLen)
    let windows ← splitRanks v c.blockLen e.nRank
    e.runRanks c.nArray (stations host windows arenas)

end Executor

/-- Reduce the arrays of a context into array `0` of the data. With fewer than two arrays, nothing
happens. -/
def reduceAccumulators (host : Host) (c : Context) (config : Config) :
    ReduceM (List RankReport) := do
  if c.isNoop then
    ReduceM.log (.nothingToCombine c.nArray)
    return []
  else
    let world ← get
    let v ← ReduceM.check (c.view world.data.size)
    let schedule := if config.nRank host.poolSize = 1 then Schedule.serial else .parallel
    let e ← ReduceM.check (Executor.ofConfig schedule host config)
    e.driveReduce host v c

/-- Do the part of a reduction that falls to `rank` out of `nRank` ranks. The view has to be the one
that `Context.rankViews` has for the rank. Once every rank has done its part, array `0` holds the
result. -/
def reducePipeline (host : Host) (v : View) (c : Context) (rank nRank : Nat) (config : Config) :
    ReduceM RankReport := do
  ReduceM.check (Context.checkRank rank nRank)
  let share ← ReduceM.insist ((c.partition nRank).owned? rank)
  if v.nArray ≠ c.nArray ∨ v.owned ≠ share then
    ReduceM.refuse (.layout .rankMismatch)
  else if c.isNoop then return .empty share
  else
    let window ← ReduceM.ofLayout v.openWindow
    let arena ← ReduceM.check (Arena.new (host.grants rank) c.blockLen)
    Rank.run ⟨window, arena, host.delay rank⟩ c.nArray config.transfer config.waitTimeoutMs

end ReplicaSum
