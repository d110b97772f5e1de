import ReplicaSum.Layout
import ReplicaSum.Proofs.Tiling
import Mathlib.Algebra.Order.Floor.Div

/-!
# Walks

The blocks of a span can be written down beforehand: they start a block length apart, and the last
one is cut off where the span ends. A walk stands before the blocks of a list, and whatever it is
asked, it answers as the list does. Moving the walk on drops blocks from the front of the list, and
so it goes on however often it is moved, also behind the last block.
-/

namespace ReplicaSum

/-! ### The list of the blocks -/

namespace Span

variable {s : Span} {blockLen j : Nat}

/-- Block `j` of a span. -/
def blockAt (s : Span) (blockLen j : Nat) : Span :=
  ⟨s.start + j * blockLen, min s.stop (s.start + (j + 1) * blockLen)⟩

/-- The blocks into which a span is cut. -/
def grid (s : Span) (blockLen : Nat) : List Span :=
  (List.range (s.length ⌈/⌉ blockLen)).map (s.blockAt blockLen)

/-- A block is full if there is another one behind it. -/
theorem length_blockAt (hb : 0 < blockLen) (hj : j + 1 < s.length ⌈/⌉ blockLen) :
  (s.blockAt blockLen j).length = blockLen
  := by
  have hlt : blockLen * (j + 1) < s.length := by
    rw [← not_le, ← ceilDiv_le_iff_le_mul hb]
    omega
  have hsucc : (j + 1) * blockLen = j * blockLen + blockLen := Nat.succ_mul j blockLen
  rw [Nat.mul_comm] at hlt
  simp only [length, blockAt] at hlt ⊢
  omega

/-- Only the last block can be short. -/
theorem length_of_mem_dropLast_grid (hb : 0 < blockLen) {t : Span}
    (ht : t ∈ (s.grid blockLen).dropLast) :
  t.length = blockLen
  := by
  obtain ⟨j, hj⟩ := List.mem_iff_getElem?.mp ht
  simp only [List.getElem?_dropLast, grid, List.length_map, List.length_range,
    Option.ite_none_right_eq_some] at hj
  obtain ⟨hlt, hj⟩ := hj
  rw [List.getElem?_map, List.getElem?_range (by omega)] at hj
  cases hj
  apply length_blockAt hb
  omega

end Span

namespace Blocks

variable {α : Type} {b rest : Blocks} {s : Span}

/-- A walk comes to the blocks of its span in order. -/
theorem getElem_toList {j : Nat} (h : b.toList[j]? = some s) :
  s = (Span.mk b.next b.stop).blockAt b.blockLen j
  := by
  fun_induction toList b generalizing j with
  | case1 => cases h
  | case2 b t rest hsome ih =>
    obtain ⟨hstart, hmid, hstop, hlen, -, hmin⟩ := next?_eq_some hsome
    obtain ⟨tstart, tstop⟩ := t
    cases j with
    | zero =>
      cases h
      simp only at hstart hmid
      rw [Span.blockAt, hstart, hmid, hmin, Nat.zero_mul, Nat.zero_add, Nat.one_mul, Nat.add_zero]
    | succ j =>
      -- There is a block behind this one, so this one is full.
      have hnext : rest.next = b.next + b.blockLen := by
        cases hrest : rest.next? with
        | none =>
          rw [List.getElem?_cons_succ, toList_eq_nil hrest] at h
          cases h
        | some r =>
          obtain ⟨-, -, -, -, hlt, hmin'⟩ := next?_eq_some hrest
          omega
      rw [ih h, Span.blockAt, Span.blockAt, hstop, hlen, hnext, Nat.succ_mul (j + 1),
        Nat.succ_mul j]
      simp only [Span.mk.injEq]
      omega

/-- A walk goes through the blocks of its span. -/
theorem toList_eq_grid (b : Blocks) :
  b.toList = (Span.mk b.next b.stop).grid b.blockLen
  := by
  have hpos := b.blockLen_pos
  have hlength : b.toList.length = ((Span.mk b.next b.stop).grid b.blockLen).length := by
    rw [length_toList, length, Span.grid, List.length_map, List.length_range,
      Nat.ceilDiv_eq_add_pred_div, Span.length, Nat.add_sub_assoc hpos]
  apply List.ext_getElem hlength
  intro j hj _
  rw [getElem_toList (List.getElem?_eq_getElem hj)]
  simp [Span.grid]

/-! ### Answers of a walk -/

/-- To go through the blocks of a walk is to go through their list. -/
theorem foldl_eq_foldl_toList (f : α → Span → α) (init : α) (b : Blocks) :
  b.foldl f init = b.toList.foldl f init
  := by
  fun_induction foldl f init b with
  | case1 init b hnone => rw [toList_eq_nil hnone, List.foldl_nil]
  | case2 init b s rest hsome ih => rw [toList_eq_cons hsome, List.foldl_cons, ih]

theorem count_eq_length (b : Blocks) :
  b.count = b.toList.length
  := by
  have hcount : ∀ (l : List Span) (n : Nat), l.foldl (fun n _ => n + 1) n = n + l.length := by
    intro l n
    induction l generalizing n with
    | nil => rfl
    | cons t l ih =>
      rw [List.foldl_cons, ih, List.length_cons]
      omega
  rw [count, foldl_eq_foldl_toList, hcount, Nat.zero_add]

theorem last?_eq_getLast? (b : Blocks) :
  b.last? = b.toList.getLast?
  := by
  have hlast : ∀ (l : List Span) (t? : Option Span),
      l.foldl (fun _ t => some t) t? = l.getLast?.or t? := by
    intro l t?
    induction l generalizing t? with
    | nil => rfl
    | cons t l ih =>
      rw [List.foldl_cons, ih, List.getLast?_cons]
      cases l.getLast? <;> rfl
  rw [last?, foldl_eq_foldl_toList, hlast, Option.or_none]

/-- The next block is the first one of the list. -/
theorem next?_fst_eq_head? (b : Blocks) :
  b.next?.map Prod.fst = b.toList.head?
  := by
  cases hnext : b.next? with
  | none =>
    rw [toList_eq_nil hnext]
    rfl
  | some r =>
    obtain ⟨s, rest⟩ := r
    rw [toList_eq_cons hnext]
    rfl

/-- What `nth` finds in the list of the blocks still to come, and what it leaves of it. -/
theorem nth_eq_getElem?_drop (k : Nat) (b : Blocks) :
  (b.nth k).1 = b.toList[k]? ∧ (b.nth k).2.toList = b.toList.drop (k + 1)
  := by
  fun_induction nth k b with
  | case1 k b hnone => simp [toList_eq_nil hnone]
  | case2 b s rest hsome => simp [toList_eq_cons hsome]
  | case3 b s rest k hsome ih => simp [toList_eq_cons hsome, ih]

/-- A walk stands before the blocks of a list: whatever it is asked, it answers as the list does. -/
structure StandsBefore (b : Blocks) (ahead : List Span) : Prop where
  next : b.next?.map Prod.fst = ahead.head?
  nth : ∀ k, (b.nth k).1 = ahead[k]?
  length : b.length = ahead.length
  count : b.count = ahead.length
  last : b.last? = ahead.getLast?
  collect : b.toList = ahead

theorem standsBefore_toList (b : Blocks) :
  b.StandsBefore b.toList
  where
  next := b.next?_fst_eq_head?
  nth k := (nth_eq_getElem?_drop k b).1
  length := b.length_toList.symm
  count := b.count_eq_length
  last := b.last?_eq_getLast?
  collect := rfl

/-! ### Moving a walk on -/

/-- The calls that move a walk on. -/
inductive Move where
  /-- Take the next block. -/
  | next
  /-- Pass over `k` blocks and take the one behind them. -/
  | nth (k : Nat)

/-- The number of blocks that a move leaves behind if there are so many. -/
def Move.passed : Move → Nat
  | .next => 1
  | .nth k => k + 1

/-- The walk behind a move. A walk that has come to its end stays there. -/
def move (b : Blocks) : Move → Blocks
  | .next => (b.next?.map Prod.snd).getD b
  | .nth k => (b.nth k).2

/-- The walk behind several moves, made one after the other. -/
def after (b : Blocks) (moves : List Move) : Blocks := moves.foldl move b

/-- A move drops blocks from the front of the list. -/
theorem toList_move (b : Blocks) (m : Move) :
  (b.move m).toList = b.toList.drop m.passed
  := by
  cases m with
  | next =>
    cases hnext : b.next? with
    | none => simp [move, hnext, toList_eq_nil hnext]
    | some r =>
      obtain ⟨s, rest⟩ := r
      simp [move, hnext, Move.passed, toList_eq_cons hnext]
  | nth k => exact (nth_eq_getElem?_drop k b).2

theorem toList_after (b : Blocks) (moves : List Move) :
  (b.after moves).toList = b.toList.drop (moves.map Move.passed).sum
  := by
  induction moves generalizing b with
  | nil => rfl
  | cons m moves ih =>
    rw [List.map_cons, List.sum_cons, ← List.drop_drop, ← toList_move]
    apply ih

/-- What every step of a walk preserves is preserved by its moves. -/
theorem after_induction {P : Blocks → Prop}
    (hstep : ∀ {b s rest}, b.next? = some (s, rest) → P b → P rest) (h : P b) (moves : List Move) :
  P (b.after moves)
  := by
  have hnth : ∀ k b, P b → P (b.nth k).2 := by
    intro k b h
    fun_induction nth k b with
    | case1 => exact h
    | case2 b s rest hsome => exact hstep hsome h
    | case3 b s rest k hsome ih => exact ih (hstep hsome h)
  induction moves generalizing b with
  | nil => exact h
  | cons m moves ih =>
    apply ih
    cases m with
    | next =>
      cases hnext : b.next? with
      | none => simpa [move, hnext] using h
      | some r =>
        obtain ⟨s, rest⟩ := r
        simpa [move, hnext] using hstep hnext h
    | nth k => exact hnth k b h

end Blocks

namespace Span

variable {s : Span} {blockLen : Nat}

/-- A walk over a span answers as the list of its blocks does, from which every move drops those
that it has passed. No block is empty, only the last one may be short, and they abut one another
from the start of the span to its end. If a block length beyond the end of the span there is still
an address, then every edge that the walk computes is one. -/
theorem blocks_standsBefore_grid (s : Span) (h : 0 < blockLen) :
  ∃ walk, s.blocks? blockLen = .ok walk
    ∧ (∀ moves, (walk.after moves).StandsBefore
        ((s.grid blockLen).drop (moves.map Blocks.Move.passed).sum))
    ∧ (∀ t ∈ s.grid blockLen, 0 < t.length ∧ t.length ≤ blockLen)
    ∧ (∀ t ∈ (s.grid blockLen).dropLast, t.length = blockLen)
    ∧ Tiles s.start (max s.start s.stop) (s.grid blockLen)
    ∧ (s.stop + blockLen < addressLimit → ∀ moves,
        (walk.after moves).next < (walk.after moves).stop →
        (walk.after moves).next + (walk.after moves).blockLen < addressLimit)
  := by
  have hgrid : (s.blocks blockLen h).toList = s.grid blockLen := Blocks.toList_eq_grid _
  use s.blocks blockLen h, dif_pos h
  constructor
  · intro moves
    rw [← hgrid, ← Blocks.toList_after]
    apply Blocks.standsBefore_toList
  rw [← hgrid]
  constructor
  · intro t ht
    apply Blocks.length_of_mem_toList ht
  constructor
  · intro t ht
    rw [hgrid] at ht
    apply length_of_mem_dropLast_grid h ht
  constructor
  · apply blocks_tiles
  · intro hlimit moves hlt
    have hkept : (s.blocks blockLen h |>.after moves).stop = s.stop
        ∧ (s.blocks blockLen h |>.after moves).blockLen = blockLen := by
      apply Blocks.after_induction (P := fun b => b.stop = s.stop ∧ b.blockLen = blockLen)
      · rintro b t rest hnext ⟨hstop, hlen⟩
        obtain ⟨-, -, hstop', hlen', -⟩ := Blocks.next?_eq_some hnext
        exact ⟨hstop'.trans hstop, hlen'.trans hlen⟩
      · exact ⟨rfl, rfl⟩
    omega

/-- Of three blocks, the last one of which is short, the first two are passed over. Moves beyond the
end leave nothing to come. -/
theorem blocks_standsBefore_grid_short :
  (Span.mk 64 100).grid 16 = [⟨64, 80⟩, ⟨80, 96⟩, ⟨96, 100⟩] ∧ 0 < 16
    ∧ ∃ walk, (Span.mk 64 100).blocks? 16 = .ok walk
      ∧ (walk.after [.nth 0, .next]).StandsBefore [⟨96, 100⟩]
      ∧ (walk.after [.nth 1, .nth 1, .next]).StandsBefore []
  := by
  obtain ⟨walk, hwalk, hafter, -⟩ := blocks_standsBefore_grid ⟨64, 100⟩ (Nat.succ_pos 15)
  use rfl, Nat.succ_pos 15, walk, hwalk
  exact ⟨hafter [.nth 0, .next], hafter [.nth 1, .nth 1, .next]⟩

end Span

end ReplicaSum
