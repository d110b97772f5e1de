import ReplicaSum.Span
import ReplicaSum.Failure

/-!
# Partitions

The records of an array are shared out among ranks in whole blocks. Rank `r` of `R` starts at
the block nearest to `r / R` of the way through the whole blocks, a half going up, and ends
where the next rank starts. The last rank also takes the short block at the tail, if there is
one.
-/

namespace ReplicaSum

/-- A way to share `nRecord` records out among `nRank` ranks in blocks of `blockLen`. -/
structure Partition where
  nRecord : Nat
  blockLen : Nat
  nRank : Nat
deriving DecidableEq, Repr

namespace Partition

/-- The number of whole blocks. -/
def nBlock (p : Partition) : Nat := p.nRecord / p.blockLen

/-- The number of whole blocks before `rank`: the integer nearest to `nBlock * rank / nRank`,
the larger one at a tie. -/
def firstBlock (p : Partition) (rank : Nat) : Nat :=
  (2 * p.nBlock * rank + p.nRank) / (2 * p.nRank)

/-- The records that `rank` owns. -/
def owned (p : Partition) (rank : Nat) : Span where
  start := p.blockLen * p.firstBlock rank
  stop := if rank + 1 = p.nRank then p.nRecord else p.blockLen * p.firstBlock (rank + 1)

/-- The records that `rank` owns, once the block length and the rank have been checked. -/
def owned? (p : Partition) (rank : Nat) : Except Violation Span :=
  if p.blockLen = 0 then .error .blockLenZero
  else if p.nRank ≤ rank then .error .rankOutOfRange
  else .ok (p.owned rank)

/-- The records of every rank, in rank order. -/
def shares (p : Partition) : List Span := (List.range p.nRank).map p.owned

/-- The number of ranks that own no record. It counts as zero when there are no records. -/
def nIdle (p : Partition) : Nat :=
  if p.nRecord = 0 then 0 else p.shares.countP Span.isEmpty

theorem owned?_eq_ok {p : Partition} {rank : Nat} (hb : 0 < p.blockLen) (hr : rank < p.nRank) :
  p.owned? rank = .ok (p.owned rank)
  := by
  rw [owned?, if_neg (by omega), if_neg (by omega)]

@[simp]
theorem length_shares (p : Partition) :
  p.shares.length = p.nRank
  := by
  simp [shares]

end Partition

end ReplicaSum
