import ReplicaSum.Reduction
import ReplicaSum.Toml.Settings
import ReplicaSum.Proofs.Tiling
import ReplicaSum.Proofs.Walks
import ReplicaSum.Proofs.Footprint
import ReplicaSum.Proofs.Rows
import ReplicaSum.Proofs.Views
import ReplicaSum.Proofs.Reference
import ReplicaSum.Proofs.BlockSums
import ReplicaSum.Proofs.Slots
import ReplicaSum.Proofs.Course
import ReplicaSum.Proofs.InFlight
import ReplicaSum.Proofs.Inevitable
import ReplicaSum.Proofs.Reducer
import ReplicaSum.Proofs.Deferred
import ReplicaSum.Proofs.Queue
import ReplicaSum.Proofs.Sequential
import ReplicaSum.Proofs.Worker
import ReplicaSum.Proofs.Interleaving
import ReplicaSum.Proofs.Actions
import ReplicaSum.Proofs.Processes
import ReplicaSum.Proofs.Shares
import ReplicaSum.Proofs.Reduction
import ReplicaSum.Proofs.Reports
import ReplicaSum.Proofs.Independence
import ReplicaSum.Proofs.LateRanks
import ReplicaSum.Proofs.Validation
import ReplicaSum.Proofs.Splitting
import ReplicaSum.Proofs.Parked
import ReplicaSum.Proofs.Faults
import ReplicaSum.Proofs.Channels
import ReplicaSum.Proofs.Connection
import ReplicaSum.Proofs.Delivery
import ReplicaSum.Proofs.Balance
import ReplicaSum.Proofs.SubRange
import ReplicaSum.Proofs.Calls
import ReplicaSum.Proofs.Custody
import ReplicaSum.Proofs.Discipline
import ReplicaSum.Proofs.Impatience
import ReplicaSum.Proofs.IdleRanks
import ReplicaSum.Proofs.SharedBlocks
import ReplicaSum.Proofs.RankViews
import ReplicaSum.Proofs.Layouts
import ReplicaSum.Proofs.Storages
import ReplicaSum.Proofs.InUse
import ReplicaSum.Proofs.Uncollected
import ReplicaSum.Proofs.Accounting
import ReplicaSum.Proofs.Timeouts
import ReplicaSum.Proofs.Promises
import ReplicaSum.Proofs.SumHistory
import ReplicaSum.Proofs.Words
import ReplicaSum.Proofs.Rejections
