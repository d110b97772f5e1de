import ReplicaSum.Blocks
import ReplicaSum.Partition
import Mathlib.Tactic.Ring

/-!
# Tilings

A tiling of a span is a list of spans that abut one another from its start to its stop. The shares
of a partition tile the records in rank order, and the blocks of a span tile the span. Members of
a tiling are disjoint, so that every index of the span lies in exactly one of them.
-/

namespace ReplicaSum

namespace Span

/-- `Tiles start stop spans`: the given spans, none of which is inverted, abut one another from
`start` to `stop`. -/
inductive Tiles : Nat → Nat → List Span → Prop where
  | nil (start : Nat) : Tiles start start []
  | cons {s : Span} {stop : Nat} {rest : List Span} (h : s.start ≤ s.stop)
      (tail : Tiles s.stop stop rest) : Tiles s.start stop (s :: rest)

namespace Tiles

variable {start mid stop : Nat} {spans rest : List Span}

theorem le (h : Tiles start stop spans) :
  start ≤ stop
  := by
  induction h with
  | nil => exact Nat.le_refl _
  | cons h _ ih => exact Nat.le_trans h ih

/-- A tiling starts where its first member does. -/
theorem start_eq {s : Span} (h : Tiles start stop (s :: rest)) :
  s.start = start
  := by
  generalize hspans : s :: rest = spans at h
  cases h with
  | nil => cases hspans
  | cons _ _ =>
    cases hspans
    rfl

/-- A tiling of a span followed by a tiling of the next one. -/
theorem append (h : Tiles start mid spans) (h' : Tiles mid stop rest) :
  Tiles start stop (spans ++ rest)
  := by
  induction h with
  | nil => exact h'
  | cons h _ ih => exact cons h (ih h')

/-- Wherever a tiling is cut, it is a tiling of a span followed by one of the next span. -/
theorem of_append (h : Tiles start stop (spans ++ rest)) :
  ∃ mid, Tiles start mid spans ∧ Tiles mid stop rest
  := by
  generalize hall : spans ++ rest = all at h
  induction h generalizing spans with
  | nil start =>
    obtain ⟨rfl, rfl⟩ := List.append_eq_nil_iff.mp hall
    exact ⟨start, .nil start, .nil start⟩
  | @cons s stop tail h htail ih =>
    cases spans with
    | nil =>
      obtain rfl : rest = s :: tail := hall
      exact ⟨s.start, .nil s.start, htail.cons h⟩
    | cons s' spans =>
      obtain ⟨rfl, hspans⟩ := List.cons.inj hall
      obtain ⟨mid, hfirst, hrest⟩ := ih hspans
      exact ⟨mid, hfirst.cons h, hrest⟩

/-- The members of a tiling lie between its ends. -/
theorem bounds (h : Tiles start stop spans) {s : Span} (hs : s ∈ spans) :
  start ≤ s.start ∧ s.start ≤ s.stop ∧ s.stop ≤ stop
  := by
  induction h with
  | nil => cases hs
  | cons h tail ih =>
    rcases List.mem_cons.mp hs with rfl | hs
    · exact ⟨Nat.le_refl _, h, tail.le⟩
    · obtain ⟨h₁, h₂, h₃⟩ := ih hs
      exact ⟨Nat.le_trans h h₁, h₂, h₃⟩

/-- The indices in the members of a tiling are those between its ends. -/
theorem exists_mem_iff (h : Tiles start stop spans) {i : Nat} :
  (∃ s ∈ spans, i ∈ s) ↔ start ≤ i ∧ i < stop
  := by
  induction h with
  | nil =>
    constructor
    · rintro ⟨s, hs, -⟩
      cases hs
    · omega
  | @cons s stop rest h tail ih =>
    have := tail.le
    simp only [List.mem_cons, exists_eq_or_imp, ih]
    rw [mem_iff]
    omega

/-- The members of a tiling start one behind the other, if none of them is empty. -/
theorem pairwise_start_lt (h : Tiles start stop spans) (hne : ∀ s ∈ spans, 0 < s.length) :
  spans.Pairwise fun s t => s.start < t.start
  := by
  induction h with
  | nil => exact .nil
  | @cons s _ rest _ tail ih =>
    apply List.Pairwise.cons
    · intro t ht
      have := hne s List.mem_cons_self
      have := (tail.bounds ht).1
      rw [Span.length] at *
      omega
    · apply ih fun t ht => hne t (List.mem_cons_of_mem s ht)

/-- A sequence of spans in which each one starts where the one before it stops is a tiling. -/
theorem map_range (f : Nat → Span) (n : Nat) (hle : ∀ r < n, (f r).start ≤ (f r).stop)
    (hnext : ∀ r < n, (f r).stop = (f (r + 1)).start) :
  Tiles (f 0).start (f n).start ((List.range n).map f)
  := by
  induction n with
  | zero => exact nil _
  | succ n ih =>
    rw [List.range_succ, List.map_append]
    apply append (ih (fun r hr => hle r (by omega)) (fun r hr => hnext r (by omega)))
    apply cons (hle n (by omega))
    rw [hnext n (by omega)]
    apply nil _

end Tiles

end Span

namespace Partition

variable (p : Partition)

/-! ### Shares -/

theorem firstBlock_zero (h : 0 < p.nRank) :
  p.firstBlock 0 = 0
  := by
  apply Nat.div_eq_of_lt
  omega

theorem firstBlock_mono {r s : Nat} (h : r ≤ s) :
  p.firstBlock r ≤ p.firstBlock s
  := by
  apply Nat.div_le_div_right
  apply Nat.add_le_add_right
  apply Nat.mul_le_mul_left _ h

theorem firstBlock_nRank (h : 0 < p.nRank) :
  p.firstBlock p.nRank = p.nBlock
  := by
  have hsplit : 2 * p.nBlock * p.nRank + p.nRank = 2 * p.nRank * p.nBlock + p.nRank := by ring
  rw [firstBlock, hsplit, Nat.mul_add_div (by omega), Nat.div_eq_of_lt (by omega), Nat.add_zero]

/-- No rank starts beyond the last whole block. -/
theorem blockLen_mul_firstBlock_le {r : Nat} (hr : r ≤ p.nRank) (h : 0 < p.nRank) :
  p.blockLen * p.firstBlock r ≤ p.nRecord
  := by
  calc p.blockLen * p.firstBlock r
    _ ≤ p.blockLen * p.firstBlock p.nRank := Nat.mul_le_mul_left _ (p.firstBlock_mono hr)
    _ = p.blockLen * p.nBlock := by rw [p.firstBlock_nRank h]
    _ ≤ p.nRecord := Nat.mul_div_le _ _

theorem owned_start_le_stop {r : Nat} (hr : r < p.nRank) :
  (p.owned r).start ≤ (p.owned r).stop
  := by
  simp only [owned]
  split
  · apply p.blockLen_mul_firstBlock_le hr.le (by omega)
  · exact Nat.mul_le_mul_left _ (p.firstBlock_mono (Nat.le_succ r))

/-- A rank stops no later than a higher rank starts. -/
theorem owned_stop_le_start {r s : Nat} (hrs : r < s) (hs : s < p.nRank) :
  (p.owned r).stop ≤ (p.owned s).start
  := by
  simp only [owned]
  rw [if_neg (by omega)]
  exact Nat.mul_le_mul_left _ (p.firstBlock_mono hrs)

/-- No record belongs to two ranks. -/
theorem eq_of_mem_owned {r s i : Nat} (hr : r < p.nRank) (hs : s < p.nRank)
    (hir : i ∈ p.owned r) (his : i ∈ p.owned s) :
  r = s
  := by
  rw [Span.mem_iff] at hir his
  rcases Nat.lt_trichotomy r s with h | h | h
  · have := p.owned_stop_le_start h hs
    omega
  · apply h
  · have := p.owned_stop_le_start h hr
    omega

/-- The shares of the ranks tile the records. -/
theorem shares_tiles (h : 0 < p.nRank) :
  Span.Tiles 0 p.nRecord p.shares
  := by
  obtain ⟨n, hn⟩ : ∃ n, p.nRank = n + 1 := ⟨p.nRank - 1, by omega⟩
  have hstart : (p.owned 0).start = 0 := by
    simp [owned, p.firstBlock_zero h]
  have hstop : (p.owned n).stop = p.nRecord := by
    simp [owned, hn]
  -- The last rank is set apart because it stops at the last record and not at a block.
  have hinit : Span.Tiles 0 (p.owned n).start ((List.range n).map p.owned) := by
    rw [← hstart]
    apply Span.Tiles.map_range
    · intro r hr
      apply p.owned_start_le_stop (by omega)
    · intro r hr
      simp only [owned]
      rw [if_neg (by omega)]
  rw [shares, hn, List.range_succ, List.map_append]
  apply hinit.append
  apply Span.Tiles.cons (p.owned_start_le_stop (by omega))
  rw [hstop]
  apply Span.Tiles.nil _

theorem owned_stop_le {r : Nat} (hr : r < p.nRank) :
  (p.owned r).stop ≤ p.nRecord
  := by
  have hmem : p.owned r ∈ p.shares := List.mem_map.mpr ⟨r, List.mem_range.mpr hr, rfl⟩
  apply ((p.shares_tiles (by omega)).bounds hmem).2.2

/-- The records that belong to the ranks are all records. -/
theorem exists_mem_owned_iff {i : Nat} (h : 0 < p.nRank) :
  (∃ r < p.nRank, i ∈ p.owned r) ↔ i < p.nRecord
  := by
  have htiles := (p.shares_tiles h).exists_mem_iff (i := i)
  simp only [shares, List.mem_map, List.mem_range, exists_exists_and_eq_and] at htiles
  rw [htiles]
  omega

end Partition

namespace Blocks

/-! ### Blocks -/

/-- What `next?` gives: a block that is neither empty nor too long, and the walk from its end on. -/
theorem next?_eq_some {b rest : Blocks} {s : Span} (h : b.next? = some (s, rest)) :
  s.start = b.next ∧ s.stop = rest.next ∧ rest.stop = b.stop ∧ rest.blockLen = b.blockLen
    ∧ b.next < rest.next ∧ rest.next = min b.stop (b.next + b.blockLen)
  := by
  have hpos := b.blockLen_pos
  simp only [next?, Option.ite_none_right_eq_some, Option.some.injEq, Prod.mk.injEq] at h
  obtain ⟨hlt, rfl, rfl⟩ := h
  simp only [true_and, and_true]
  omega

theorem next?_eq_none {b : Blocks} (h : b.next? = none) :
  b.stop ≤ b.next
  := by
  simpa [next?] using h

/-- A walk of no blocks has length `0`, and each block adds one to the length. -/
theorem length_toList (b : Blocks) :
  b.toList.length = b.length
  := by
  have hpos := b.blockLen_pos
  fun_induction toList b with
  | case1 b hnone =>
    have := next?_eq_none hnone
    rw [length, List.length_nil, Nat.sub_eq_zero_of_le this, Nat.zero_add,
      Nat.div_eq_of_lt (by omega)]
  | case2 b s rest hsome ih =>
    obtain ⟨-, -, hstop, hlen, hlt, hmin⟩ := next?_eq_some hsome
    rw [List.length_cons, ih rest.blockLen_pos, length, length, hstop, hlen]
    have hle : rest.next ≤ b.stop := by omega
    rcases Nat.le_total b.stop (b.next + b.blockLen) with hshort | hfull
    · -- The last block, which may be shorter than the others.
      rw [Nat.div_eq_of_lt (by omega)]
      symm
      apply Nat.div_eq_of_lt_le
      · omega
      · omega
    · rw [← Nat.add_div_right _ hpos]
      congr 1
      omega

/-- The blocks of a walk tile what is left of its span. -/
theorem toList_tiles (b : Blocks) (h : b.next ≤ b.stop) :
  Span.Tiles b.next b.stop b.toList
  := by
  fun_induction toList b with
  | case1 b hnone =>
    have := next?_eq_none hnone
    rw [Nat.le_antisymm h this]
    apply Span.Tiles.nil _
  | case2 b s rest hsome ih =>
    obtain ⟨hstart, hmid, hstop, -, hlt, hmin⟩ := next?_eq_some hsome
    rw [← hstart, ← hstop]
    apply Span.Tiles.cons (by omega)
    rw [hmid]
    apply ih
    omega

/-- No block is empty, and none is longer than the block length. -/
theorem length_of_mem_toList {b : Blocks} {s : Span} (hs : s ∈ b.toList) :
  0 < s.length ∧ s.length ≤ b.blockLen
  := by
  fun_induction toList b with
  | case1 => cases hs
  | case2 b t rest hsome ih =>
    obtain ⟨hstart, hmid, -, hlen, hlt, hmin⟩ := next?_eq_some hsome
    rcases List.mem_cons.mp hs with rfl | hs
    · simp only [Span.length]
      omega
    · rw [← hlen]
      apply ih hs

end Blocks

namespace Span

variable {s : Span} {blockLen : Nat} {h : 0 < blockLen}

/-- The blocks of a span tile it; those of an inverted span tile nothing. -/
theorem blocks_tiles :
  Tiles s.start (max s.start s.stop) (s.blocks blockLen h).toList
  := by
  rcases Nat.le_total s.start s.stop with hle | hle
  · rw [Nat.max_eq_right hle]
    apply Blocks.toList_tiles (s.blocks blockLen h) hle
  · have hnone : (s.blocks blockLen h).next? = none := if_neg (Nat.not_lt.mpr hle)
    rw [Nat.max_eq_left hle, Blocks.toList_eq_nil hnone]
    apply Tiles.nil _

theorem length_blocks :
  (s.blocks blockLen h).toList.length = (s.length + (blockLen - 1)) / blockLen
  := Blocks.length_toList _

theorem blocks_eq_nil_iff :
  (s.blocks blockLen h).toList = [] ↔ s.isEmpty = true
  := by
  rw [← List.length_eq_zero_iff, length_blocks, isEmpty_iff, Nat.div_eq_zero_iff]
  omega

end Span

end ReplicaSum
