import ReplicaSum.Proofs.Balance
import ReplicaSum.Strided

/-!
# Shares in machine words

A machine shares records out with words of 64 bits. Only the products in front of the division are
wider, with 128 bits, and the quotient is cut off to a word again. All of this arithmetic wraps
around. Nothing does wrap around as long as there are no more than `2 ^ 63` ranks, or fewer whole
blocks than that, which holds for the records of any slice that can be had. The shares are those of
`Partition` then.
-/

namespace ReplicaSum

/-- A number of 64 bits. Arithmetic is modulo `2 ^ 64`. -/
abbrev Word := BitVec 64

/-- A number of 128 bits. Arithmetic is modulo `2 ^ 128`. -/
abbrev WideWord := BitVec 128

/-- The wide word for the same number. -/
def Word.widen (x : Word) : WideWord := x.setWidth 128

/-- The word that is left of a wide word when its upper half is dropped. -/
def WideWord.narrow (x : WideWord) : Word := x.setWidth 64

@[simp]
theorem Word.toNat_widen (x : Word) :
  x.widen.toNat = x.toNat
  := BitVec.toNat_setWidth_of_le (by decide)

/-- A number that fits a word is not changed when the upper half is dropped. -/
theorem WideWord.toNat_narrow {x : WideWord} (h : x.toNat < 2 ^ 64) :
  x.narrow.toNat = x.toNat
  := by
  rw [narrow, BitVec.toNat_setWidth, Nat.mod_eq_of_lt h]

/-- A product of bits stands for the product of the numbers if that fits. -/
theorem toNat_mul_of_fits {width a b : Nat} {x y : BitVec width} (hx : x.toNat = a)
    (hy : y.toNat = b) (h : a * b < 2 ^ width) :
  (x * y).toNat = a * b
  := by
  rw [← hx, ← hy] at h ⊢
  apply BitVec.toNat_mul_of_lt h

/-- A half-open range of words. -/
structure WordSpan where
  start : Word
  stop : Word
deriving DecidableEq, Repr

/-- The span between the numbers for which the words stand. -/
def WordSpan.exact (s : WordSpan) : Span := ⟨s.start.toNat, s.stop.toNat⟩

/-- A partition as a machine is given it. -/
structure WordPartition where
  nRecord : Word
  blockLen : Word
  nRank : Word
deriving DecidableEq, Repr

namespace WordPartition

/-- The partition of the numbers for which the words stand. -/
def exact (p : WordPartition) : Partition := ⟨p.nRecord.toNat, p.blockLen.toNat, p.nRank.toNat⟩

/-- The number of whole blocks. -/
def nBlock (p : WordPartition) : Word := p.nRecord / p.blockLen

/-- The number of whole blocks before `rank`. -/
def firstBlock (p : WordPartition) (rank : Word) : Word :=
  ((2 * p.nBlock.widen * rank.widen + p.nRank.widen) / (2 * p.nRank.widen)).narrow

/-- The records that `rank` owns. -/
def owned (p : WordPartition) (rank : Word) : WordSpan where
  start := p.blockLen * p.firstBlock rank
  stop := if rank + 1 = p.nRank then p.nRecord else p.blockLen * p.firstBlock (rank + 1)

/-- The records that `rank` owns, once the block length and the rank have been checked. -/
def owned? (p : WordPartition) (rank : Word) : Except Violation WordSpan :=
  if p.blockLen = 0 then .error .blockLenZero
  else if p.nRank ≤ rank then .error .rankOutOfRange
  else .ok (p.owned rank)

end WordPartition

/-! ### What fits -/

namespace Partition

variable (p : Partition) {r : Nat}

/-- No rank starts beyond the last whole block. -/
theorem firstBlock_le_nBlock (hr : r ≤ p.nRank) (h : 0 < p.nRank) :
  p.firstBlock r ≤ p.nBlock
  := by
  rw [← p.firstBlock_nRank h]
  apply p.firstBlock_mono hr

/-- There are few ranks or few whole blocks, of all that words can count. -/
def Small : Prop := p.nBlock < 2 ^ 63 ∨ p.nRank ≤ 2 ^ 63

/-- The numerator of every rank fits a wide word. -/
theorem numerator_lt (hsmall : p.Small) (hblock : p.nBlock < 2 ^ 64) (hrank : p.nRank < 2 ^ 64)
    (hr : r < p.nRank) :
  2 * p.nBlock * r + p.nRank < 2 ^ 128
  := by
  obtain ⟨n, hn⟩ : ∃ n, p.nRank = n + 1 := ⟨p.nRank - 1, by omega⟩
  have hmul : 2 * p.nBlock * r ≤ 2 * p.nBlock * n := Nat.mul_le_mul_left _ (by omega)
  rcases hsmall with hfew | hfew
  · have hmul' : 2 * p.nBlock * n ≤ (2 ^ 64 - 2) * n := Nat.mul_le_mul_right _ (by omega)
    omega
  · have hmul' : 2 * p.nBlock * n ≤ (2 ^ 65 - 2) * n := Nat.mul_le_mul_right _ (by omega)
    omega

/-- What a machine computes on the way to the share of rank `r` fits its words. -/
structure FitsWords (r : Nat) : Prop where
  numerator_lt : 2 * p.nBlock * r + p.nRank < 2 ^ 128
  numerator_next_lt : r + 1 < p.nRank → 2 * p.nBlock * (r + 1) + p.nRank < 2 ^ 128
  denominator_lt : 2 * p.nRank < 2 ^ 128
  firstBlock_le : p.firstBlock r ≤ p.nBlock
  firstBlock_next_le : r + 1 < p.nRank → p.firstBlock (r + 1) ≤ p.nBlock
  nBlock_lt : p.nBlock < 2 ^ 64
  start_le : p.blockLen * p.firstBlock r ≤ p.nRecord
  start_next_le : r + 1 < p.nRank → p.blockLen * p.firstBlock (r + 1) ≤ p.nRecord
  next_lt : r + 1 < 2 ^ 64

/-- Whatever the ranks are, a slice that can be had has few blocks. -/
theorem nBlock_lt_of_slice (h : p.nRecord * recordBytes ≤ largestOffset) :
  p.nBlock < 2 ^ 63
  := by
  have hle : p.nRecord ≤ largestOffset :=
    Nat.le_trans (Nat.le_mul_of_pos_right _ (by decide)) h
  calc p.nBlock
    _ ≤ p.nRecord := Nat.div_le_self _ _
    _ ≤ largestOffset := hle
    _ < 2 ^ 63 := by decide

end Partition

/-! ### Exactness -/

namespace WordPartition

variable (p : WordPartition) {rank : Word}

theorem nBlock_exact :
  p.nBlock.toNat = p.exact.nBlock
  := BitVec.toNat_udiv

theorem exact_nBlock_lt :
  p.exact.nBlock < 2 ^ 64
  := by
  rw [← p.nBlock_exact]
  apply BitVec.isLt

theorem fitsWords (hsmall : p.exact.Small) (hr : rank.toNat < p.exact.nRank) :
  p.exact.FitsWords rank.toNat
  := by
  have hpos : 0 < p.exact.nRank := by omega
  have hrank : p.exact.nRank < 2 ^ 64 := p.nRank.isLt
  constructor
  · exact p.exact.numerator_lt hsmall p.exact_nBlock_lt hrank hr
  · exact p.exact.numerator_lt hsmall p.exact_nBlock_lt hrank
  · omega
  · exact p.exact.firstBlock_le_nBlock hr.le hpos
  · intro hnext
    exact p.exact.firstBlock_le_nBlock hnext.le hpos
  · exact p.exact_nBlock_lt
  · exact p.exact.blockLen_mul_firstBlock_le hr.le hpos
  · intro hnext
    exact p.exact.blockLen_mul_firstBlock_le hnext.le hpos
  · omega

/-- A machine finds the first block of a rank if the numerator fits a wide word. -/
theorem toNat_firstBlock (rank : Word)
    (hnumerator : 2 * p.exact.nBlock * rank.toNat + p.exact.nRank < 2 ^ 128)
    (hr : rank.toNat ≤ p.exact.nRank) (hpos : 0 < p.exact.nRank) :
  (p.firstBlock rank).toNat = p.exact.firstBlock rank.toNat
  := by
  have hle := p.exact.firstBlock_le_nBlock hr hpos
  have hblock := p.exact_nBlock_lt
  have hrank : p.exact.nRank < 2 ^ 64 := p.nRank.isLt
  have hnBlock : p.nBlock.widen.toNat = p.exact.nBlock := by
    rw [Word.toNat_widen, nBlock_exact]
  have hnRank : p.nRank.widen.toNat = p.exact.nRank := p.nRank.toNat_widen
  have hdouble : (2 * p.nBlock.widen).toNat = 2 * p.exact.nBlock :=
    toNat_mul_of_fits rfl hnBlock (by omega)
  have hproduct : (2 * p.nBlock.widen * rank.widen).toNat
      = 2 * p.exact.nBlock * rank.toNat :=
    toNat_mul_of_fits hdouble rank.toNat_widen (by omega)
  have hsum : (2 * p.nBlock.widen * rank.widen + p.nRank.widen).toNat
      = 2 * p.exact.nBlock * rank.toNat + p.exact.nRank := by
    rw [← hproduct, ← hnRank] at hnumerator ⊢
    apply BitVec.toNat_add_of_lt hnumerator
  have hdenominator : (2 * p.nRank.widen).toNat = 2 * p.exact.nRank :=
    toNat_mul_of_fits rfl hnRank (by omega)
  have hquotient : ((2 * p.nBlock.widen * rank.widen + p.nRank.widen)
      / (2 * p.nRank.widen)).toNat = p.exact.firstBlock rank.toNat := by
    rw [BitVec.toNat_udiv, hsum, hdenominator]
    rfl
  rw [firstBlock, WideWord.toNat_narrow, hquotient]
  rw [hquotient]
  omega

/-- Where the numbers fit, a machine finds the share of a rank. -/
theorem exact_owned (hr : rank.toNat < p.exact.nRank) (h : p.exact.FitsWords rank.toNat) :
  (p.owned rank).exact = p.exact.owned rank.toNat
  := by
  have hpos : 0 < p.exact.nRank := by omega
  have hrecord : p.exact.nRecord < 2 ^ 64 := p.nRecord.isLt
  have hnext : (rank + 1).toNat = rank.toNat + 1 := BitVec.toNat_add_of_lt h.next_lt
  have hstart : (p.blockLen * p.firstBlock rank).toNat
      = p.exact.blockLen * p.exact.firstBlock rank.toNat := by
    apply toNat_mul_of_fits rfl (p.toNat_firstBlock rank h.numerator_lt hr.le hpos)
    apply Nat.lt_of_le_of_lt h.start_le hrecord
  have hlast : rank + 1 = p.nRank ↔ rank.toNat + 1 = p.exact.nRank := by
    rw [← BitVec.toNat_inj, hnext]
    exact Iff.rfl
  rw [WordSpan.exact, owned, Partition.owned, hstart]
  congr 1
  by_cases hend : rank.toNat + 1 = p.exact.nRank
  · rw [if_pos (hlast.mpr hend), if_pos hend]
    rfl
  · have hlt : rank.toNat + 1 < p.exact.nRank := by omega
    have hstop : (p.blockLen * p.firstBlock (rank + 1)).toNat
        = p.exact.blockLen * p.exact.firstBlock (rank.toNat + 1) := by
      have hfirst := p.toNat_firstBlock (rank + 1)
      rw [hnext] at hfirst
      apply toNat_mul_of_fits rfl (hfirst (h.numerator_next_lt hlt) hlt.le hpos)
      apply Nat.lt_of_le_of_lt (h.start_next_le hlt) hrecord
    rw [if_neg (mt hlast.mp hend), if_neg hend, hstop]

theorem exact_owned? (hsmall : p.exact.Small) (rank : Word) :
  (p.owned? rank).map WordSpan.exact = p.exact.owned? rank.toNat
  := by
  have hzero : p.blockLen = 0 ↔ p.exact.blockLen = 0 := by
    rw [← BitVec.toNat_inj]
    exact Iff.rfl
  have hrank : p.nRank ≤ rank ↔ p.exact.nRank ≤ rank.toNat := BitVec.le_def
  rw [owned?, Partition.owned?]
  by_cases hb : p.exact.blockLen = 0
  · rw [if_pos (hzero.mpr hb), if_pos hb]
    rfl
  · rw [if_neg (mt hzero.mp hb), if_neg hb]
    by_cases hr : p.exact.nRank ≤ rank.toNat
    · rw [if_pos (hrank.mpr hr), if_pos hr]
      rfl
    · have hlt : rank.toNat < p.exact.nRank := Nat.lt_of_not_le hr
      rw [if_neg (mt hrank.mp hr), if_neg hr, ← p.exact_owned hlt (p.fitsWords hsmall hlt)]
      rfl

/-- A machine answers just as exact numbers do if there are no more than `2 ^ 63` ranks, or fewer
whole blocks than that. No number on the way to a share wraps around then. Any slice that can be had
has fewer blocks. -/
theorem owned_words_exact :
  ((p.exact.nBlock < 2 ^ 63 ∨ p.exact.nRank ≤ 2 ^ 63) → ∀ rank : Word,
      (p.owned? rank).map WordSpan.exact = p.exact.owned? rank.toNat ∧
      (rank.toNat < p.exact.nRank → p.exact.FitsWords rank.toNat))
    ∧ (p.exact.nRecord * recordBytes ≤ largestOffset → p.exact.nBlock < 2 ^ 63)
  := by
  constructor
  · intro hsmall rank
    use p.exact_owned? hsmall rank
    apply p.fitsWords hsmall
  · apply p.exact.nBlock_lt_of_slice

/-- With as many records as a word can count and `2 ^ 63` ranks, the last rank has two blocks. The
numerator on the way to the last of them needs 128 bits. A slice of a hundred records can be had. -/
theorem owned_words_exact_last_rank :
  ∃ (p : WordPartition) (rank : Word),
    p = ⟨.ofNat 64 (2 ^ 64 - 1), 1, .ofNat 64 (2 ^ 63)⟩ ∧ rank = .ofNat 64 (2 ^ 63 - 1) ∧
    p.exact.nRank ≤ 2 ^ 63 ∧ rank.toNat < p.exact.nRank ∧
    2 ^ 127 ≤ 2 * p.exact.nBlock * rank.toNat + p.exact.nRank ∧
    p.exact.owned? rank.toNat = .ok ⟨2 ^ 64 - 3, 2 ^ 64 - 1⟩ ∧
    (p.owned? rank).map WordSpan.exact = p.exact.owned? rank.toNat ∧
    p.exact.FitsWords rank.toNat ∧
    100 * recordBytes ≤ largestOffset ∧ (WordPartition.mk 100 32 4).exact.nBlock < 2 ^ 63
  := by
  refine ⟨_, _, rfl, rfl, by decide, by decide, by decide, by decide, ?_⟩
  obtain ⟨hexact, hfits⟩ :=
    (owned_words_exact ⟨.ofNat 64 (2 ^ 64 - 1), 1, .ofNat 64 (2 ^ 63)⟩).1 (.inr (by decide))
      (.ofNat 64 (2 ^ 63 - 1))
  have hslice : 100 * recordBytes ≤ largestOffset := by decide
  exact ⟨hexact, hfits (by decide), hslice, (owned_words_exact ⟨100, 32, 4⟩).2 hslice⟩

/-- With more blocks and more ranks than that, the numerator of the last rank wraps around. -/
example :
    ∃ (p : WordPartition) (rank : Word), p.exact.nBlock = 2 ^ 63 + 1 ∧ p.exact.nRank = 2 ^ 64 - 1 ∧
      (p.owned? rank).map WordSpan.exact ≠ p.exact.owned? rank.toNat :=
  ⟨⟨.ofNat 64 (2 ^ 63 + 1), 1, .ofNat 64 (2 ^ 64 - 1)⟩, .ofNat 64 (2 ^ 64 - 2), by decide⟩

end WordPartition

end ReplicaSum
