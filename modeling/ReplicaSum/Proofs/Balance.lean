import ReplicaSum.Proofs.Tiling
import Mathlib.Algebra.Order.Floor.Div
import Mathlib.GroupTheory.GroupAction.Ring

/-!
# Balanced shares

How a partition cuts the records. Every rank starts at a whole block, and the number of blocks
before it is a quotient rounded to the nearest integer, a half going up. Consequently the shares
abut one another and cover the records, only the last one takes a short block, and the numbers of
whole blocks of two ranks differ by at most one.
-/

namespace ReplicaSum

namespace Partition

variable (p : Partition) {r : Nat}

/-! ### Cuts at whole blocks -/

theorem dvd_owned_start (r : Nat) :
  p.blockLen ∣ (p.owned r).start
  := Nat.dvd_mul_right _ _

theorem owned_start_zero (h : 0 < p.nRank) :
  (p.owned 0).start = 0
  := by
  rw [owned, p.firstBlock_zero h, Nat.mul_zero]

/-- A rank starts where the one before it stops. -/
theorem owned_start_succ (hr : r + 1 < p.nRank) :
  (p.owned (r + 1)).start = (p.owned r).stop
  := by
  simp only [owned]
  rw [if_neg (by omega)]

theorem owned_stop_last (hr : r + 1 = p.nRank) :
  (p.owned r).stop = p.nRecord
  := if_pos hr

/-- A rank other than the last one owns the blocks between its first block and the next rank's. -/
theorem owned_length (hr : r + 1 < p.nRank) :
  (p.owned r).length = p.blockLen * (p.firstBlock (r + 1) - p.firstBlock r)
  := by
  simp only [Span.length, owned]
  rw [if_neg (by omega), Nat.mul_sub]

/-- The last rank owns what lies behind the blocks of the others. -/
theorem owned_length_last (hr : r + 1 = p.nRank) :
  (p.owned r).length = p.nRecord - p.blockLen * p.firstBlock r
  := by
  rw [Span.length, p.owned_stop_last hr]
  rfl

/-- What it means to share the records of a partition out among its ranks: the shares abut one
another, cover each record once, and are cut at whole blocks. What doesn't fill a block goes to the
last rank. -/
structure SharesOut (share : Nat → Span) : Prop where
  start_le_stop : ∀ r < p.nRank, (share r).start ≤ (share r).stop
  starts : (share 0).start = 0
  next : ∀ r, r + 1 < p.nRank → (share (r + 1)).start = (share r).stop
  stops : (share (p.nRank - 1)).stop = p.nRecord
  owner : ∀ i < p.nRecord, ∃! r, r < p.nRank ∧ i ∈ share r
  dvd_start : ∀ r < p.nRank, p.blockLen ∣ (share r).start
  dvd_length : ∀ r, r + 1 < p.nRank → p.blockLen ∣ (share r).length
  tail : (share (p.nRank - 1)).length % p.blockLen = p.nRecord % p.blockLen

/-- The records are shared out among the ranks, in whole blocks but for the tail. -/
theorem owned_sharesOut (hb : 0 < p.blockLen) (hn : 0 < p.nRank) :
  (∀ r < p.nRank, p.owned? r = .ok (p.owned r)) ∧ p.SharesOut p.owned
  := by
  have hlast : p.nRank - 1 + 1 = p.nRank := by omega
  constructor
  · intro r hr
    apply owned?_eq_ok hb hr
  · constructor
    · intro r hr
      apply p.owned_start_le_stop hr
    · apply p.owned_start_zero hn
    · intro r hr
      apply p.owned_start_succ hr
    · apply p.owned_stop_last hlast
    · intro i hi
      obtain ⟨r, hr, hir⟩ := (p.exists_mem_owned_iff hn).mpr hi
      use r, ⟨hr, hir⟩
      rintro s ⟨hs, his⟩
      apply p.eq_of_mem_owned hs hr his hir
    · intro r _
      apply p.dvd_owned_start r
    · intro r hr
      rw [p.owned_length hr]
      apply Nat.dvd_mul_right _ _
    · rw [p.owned_length_last hlast]
      apply Nat.sub_mul_mod
      apply p.blockLen_mul_firstBlock_le (by omega) hn

/-- Three blocks and a tail are shared out among four ranks. The third rank gets no block and the
last one gets the tail. -/
theorem owned_sharesOut_three_blocks :
  (Partition.mk 100 32 4).shares = [⟨0, 32⟩, ⟨32, 64⟩, ⟨64, 64⟩, ⟨64, 100⟩]
    ∧ (∀ r < 4, (Partition.mk 100 32 4).owned? r = .ok ((Partition.mk 100 32 4).owned r))
    ∧ (Partition.mk 100 32 4).SharesOut (Partition.mk 100 32 4).owned
  := ⟨by decide, (Partition.mk 100 32 4).owned_sharesOut (by decide) (by decide)⟩

/-! ### Rounding -/

/-- The number of blocks before a rank is the integer nearest to `nBlock * r / nRank`, the larger
one at a tie. -/
theorem firstBlock_bounds (h : 0 < p.nRank) (r : Nat) :
  2 * (p.firstBlock r * p.nRank) ≤ 2 * (p.nBlock * r) + p.nRank
    ∧ 2 * (p.nBlock * r) < 2 * (p.firstBlock r * p.nRank) + p.nRank
  := by
  have hle : p.firstBlock r * (2 * p.nRank) ≤ 2 * p.nBlock * r + p.nRank :=
    Nat.div_mul_le_self _ _
  have hlt : 2 * p.nBlock * r + p.nRank < p.firstBlock r * (2 * p.nRank) + 2 * p.nRank :=
    Nat.lt_div_mul_add (by omega)
  rw [Nat.mul_left_comm, Nat.mul_assoc] at hle hlt
  omega

/-- How many whole blocks there are from the first block of a rank to the next rank's, compared with
the average. -/
theorem firstBlock_step_bounds (h : 0 < p.nRank) (r : Nat) :
  p.nBlock < (p.firstBlock (r + 1) - p.firstBlock r) * p.nRank + p.nRank
    ∧ (p.firstBlock (r + 1) - p.firstBlock r) * p.nRank < p.nBlock + p.nRank
  := by
  obtain ⟨d, hd⟩ := Nat.exists_eq_add_of_le (p.firstBlock_mono (Nat.le_succ r))
  obtain ⟨hle, hlt⟩ := p.firstBlock_bounds h r
  obtain ⟨hle', hlt'⟩ := p.firstBlock_bounds h (r + 1)
  have hnext : p.nBlock * (r + 1) = p.nBlock * r + p.nBlock := Nat.mul_succ _ _
  have hstep : p.firstBlock (r + 1) * p.nRank = p.firstBlock r * p.nRank + d * p.nRank := by
    rw [hd, Nat.add_mul]
  rw [hd, Nat.add_sub_cancel_left]
  omega

/-- A number of blocks that differs from the average by less than one is the average rounded down or
up. -/
theorem eq_div_or_eq_ceilDiv {b n d : Nat} (hlo : b < d * n + n) (hhi : d * n < b + n) :
  d = b / n ∨ d = b ⌈/⌉ n
  := by
  have hsucc : (d + 1) * n = d * n + n := Nat.succ_mul d n
  rcases Nat.lt_or_ge b (d * n) with hlt | hle
  · right
    symm
    rw [Nat.ceilDiv_eq_add_pred_div]
    apply Nat.div_eq_of_lt_le
    · omega
    · rw [hsucc]
      omega
  · left
    symm
    apply Nat.div_eq_of_lt_le hle
    rw [hsucc]
    apply hlo

/-- The number of whole blocks that a rank owns. -/
theorem owned_length_div (hb : 0 < p.blockLen) (hr : r < p.nRank) :
  (p.owned r).length / p.blockLen = p.firstBlock (r + 1) - p.firstBlock r
  := by
  rcases Nat.lt_or_ge (r + 1) p.nRank with hlt | hge
  · rw [p.owned_length hlt, Nat.mul_div_cancel_left _ hb]
  · have hlast : r + 1 = p.nRank := Nat.le_antisymm hr hge
    rw [p.owned_length_last hlast, hlast, p.firstBlock_nRank (by omega)]
    apply Nat.sub_mul_div

/-- Every rank, the last one included, owns the average number of whole blocks rounded down or up,
and the number of blocks before it is the exact number rounded to the nearest integer, a half going
up. -/
theorem owned_balanced (hb : 0 < p.blockLen) (hr : r < p.nRank) :
  ∃ share, p.owned? r = .ok share ∧
    (share.length / p.blockLen = p.nBlock / p.nRank
      ∨ share.length / p.blockLen = p.nBlock ⌈/⌉ p.nRank) ∧
    2 * (((share.start / p.blockLen : Nat) : Int) * p.nRank - p.nBlock * r) ≤ p.nRank ∧
    2 * ((p.nBlock : Int) * r - ((share.start / p.blockLen : Nat) : Int) * p.nRank) < p.nRank
  := by
  have hn : 0 < p.nRank := by omega
  use p.owned r, owned?_eq_ok hb hr
  constructor
  · rw [p.owned_length_div hb hr]
    obtain ⟨hlo, hhi⟩ := p.firstBlock_step_bounds hn r
    apply eq_div_or_eq_ceilDiv hlo hhi
  · obtain ⟨hle, hlt⟩ := p.firstBlock_bounds hn r
    have hstart : (p.owned r).start / p.blockLen = p.firstBlock r := Nat.mul_div_cancel_left _ hb
    -- The differences may be negative, so the bounds are taken over to the integers.
    have hle' : 2 * ((p.firstBlock r : Int) * p.nRank) ≤ 2 * (p.nBlock * r) + p.nRank := by
      exact_mod_cast hle
    have hlt' : 2 * ((p.nBlock : Int) * r) < 2 * (p.firstBlock r * p.nRank) + p.nRank := by
      exact_mod_cast hlt
    rw [hstart]
    omega

/-- Of three blocks, one and a half would be before the second of two ranks. Two are. -/
theorem owned_balanced_tie :
  (Partition.mk 100 32 2).owned? 1 = .ok ⟨64, 100⟩
    ∧ 0 < 32 ∧ 1 < 2
    ∧ ∃ share, (Partition.mk 100 32 2).owned? 1 = .ok share ∧
      (share.length / 32 = 3 / 2 ∨ share.length / 32 = 3 ⌈/⌉ 2) ∧
      2 * (((share.start / 32 : Nat) : Int) * 2 - 3 * 1) ≤ 2 ∧
      2 * ((3 : Int) * 1 - ((share.start / 32 : Nat) : Int) * 2) < 2
  := ⟨by decide, by decide, by decide,
    (Partition.mk 100 32 2).owned_balanced (by decide) (by decide)⟩

end Partition

end ReplicaSum
