import ReplicaSum.Window
import Mathlib.Data.List.FinRange
import Mathlib.Tactic.Common

/-!
# Taking a view apart into rows

A storage is made by parting the rows of a view from each other and looking at each of them whether
its records lie side by side. They do if the records of the view are one apart, and then the storage
has the stretch of each array where the window on the view finds the array.
-/

namespace ReplicaSum

/-- What succeeds in two steps has succeeded in the first one, and goes on from there. -/
theorem of_bind_eq_ok {ε α β : Type} {x : Except ε α} {f : α → Except ε β} {b : β}
    (h : (x >>= f) = .ok b) :
  ∃ a, x = .ok a ∧ f a = .ok b
  := by
  cases x with
  | ok a => exact ⟨a, rfl, h⟩
  | error cause => cases h

namespace Rows

variable {r : Rows} {k : Nat} {as : List (Fin maxArray)} {inputs : Vector Span maxArray}

theorem splitHead_eq_ok (h : 0 < r.nRow) :
  r.splitHead = .ok (r.head, r.tail)
  := if_pos h

theorem stretch_eq_ok {row : Row} (h : row.step = 1) :
  row.stretch = .ok ⟨row.start, row.start + row.length⟩
  := if_pos (.inr h)

/-- Rows that belong to the arrays from `k` on are `stride` records apart. The stretches of other
arrays stay what they were. -/
theorem stretches_eq_ok (hstep : r.head.step = 1) (hrow : as.length ≤ r.nRow)
    (has : as.map Fin.val = List.range' k as.length) (inputs : Vector Span maxArray) :
  ∃ inputs', r.stretches as inputs = .ok inputs' ∧ ∀ b : Fin maxArray,
    inputs'[b] = if k ≤ b.val ∧ b.val < k + as.length then
      ⟨r.head.start + (b - k) * r.stride, r.head.start + (b - k) * r.stride + r.head.length⟩
    else inputs[b]
  := by
  induction as generalizing r k inputs with
  | nil =>
    use inputs, rfl
    intro b
    rw [List.length_nil, if_neg (by omega)]
  | cons a rest ih =>
    rw [List.map_cons, List.length_cons, List.range'_succ, List.cons.injEq] at has
    obtain ⟨rfl, hrest⟩ := has
    have hpos : 0 < r.nRow := by
      rw [List.length_cons] at hrow
      omega
    obtain ⟨inputs', hinputs, hget⟩ := ih
      (r := r.tail) hstep (Nat.le_sub_one_of_lt hrow) hrest
      (inputs.set a ⟨r.head.start, r.head.start + r.head.length⟩)
    use inputs'
    constructor
    · simp only [stretches, splitHead_eq_ok hpos, stretch_eq_ok hstep, bind, Except.bind, hinputs]
    · intro b
      rw [hget b, List.length_cons]
      rcases Nat.lt_trichotomy b.val a.val with hlt | heq | hgt
      · rw [if_neg (by omega), if_neg (by omega)]
        simp [Nat.ne_of_gt hlt]
      · rw [if_neg (by omega), if_pos (by omega)]
        obtain rfl := Fin.ext heq
        simp
      · have hshift : b.val - a.val = b.val - (a.val + 1) + 1 := by omega
        have hstart : r.head.start + r.stride + (b.val - (a.val + 1)) * r.stride
            = r.head.start + (b.val - a.val) * r.stride := by
          rw [hshift, Nat.succ_mul]
          omega
        simp only [tail, hstart]
        by_cases hlt : b.val < a.val + (rest.length + 1)
        · rw [if_pos (by omega), if_pos (by omega)]
        · rw [if_neg (by omega), if_neg (by omega)]
          simp [Nat.ne_of_lt hgt]

end Rows

namespace View

variable {v : View}

/-- The storage of the records that a view shows, if they lie side by side in each array: its
stretches are where the window on the view has the arrays. -/
def storage (v : View) : Storage where
  owned := v.owned
  nArray := v.nArray
  out := ⟨v.window.address 0 v.owned.start, v.window.address 0 v.owned.stop⟩
  inputs := Vector.ofFn fun a =>
    if 0 < a.val ∧ a.val < v.nArray then
      ⟨v.window.address a v.owned.start, v.window.address a v.owned.stop⟩
    else ⟨0, 0⟩

/-- The storage has a stretch for every array of the view. -/
theorem stretch_storage {a : Nat} (ha : a < v.nArray) (hn : v.nArray ≤ maxArray) :
  v.storage.stretch a
    = .ok ⟨v.window.address a v.owned.start, v.window.address a v.owned.stop⟩
  := by
  rw [Storage.stretch]
  split
  · rename_i hzero
    rw [hzero]
    rfl
  · have hlt : a < maxArray := Nat.lt_of_lt_of_le ha hn
    simp only [storage, Vector.getElem?_eq_getElem hlt, Vector.getElem_ofFn]
    rw [if_pos ⟨by omega, ha⟩]

/-- A view of at least one array whose records lie side by side has a storage. Neither the splits
between its rows nor the looks at them fail. -/
theorem rankStorage_eq_ok (hn : 0 < v.nArray) (hstep : v.step = 1) :
  v.rankStorage = .ok v.storage
  := by
  have hlength : (((List.finRange maxArray).take v.nArray).drop 1).length
      = min v.nArray maxArray - 1 := by
    rw [List.length_drop, List.length_take, List.length_finRange]
  have harrays : (((List.finRange maxArray).take v.nArray).drop 1).map Fin.val
      = List.range' 1 (((List.finRange maxArray).take v.nArray).drop 1).length := by
    rw [hlength, List.map_drop, List.map_take, List.map_coe_finRange_eq_range, List.take_range,
      List.range_eq_range', List.drop_range', Nat.zero_add]
  obtain ⟨inputs, hinputs, hget⟩ := Rows.stretches_eq_ok
    (r := v.rows.tail) hstep (by simp only [hlength, Rows.tail, rows]; omega) harrays
    (Vector.replicate maxArray ⟨0, 0⟩)
  have hsame : inputs = v.storage.inputs := by
    apply Vector.ext
    intro a ha
    apply (hget ⟨a, ha⟩).trans
    simp only [storage, Vector.getElem_ofFn, hlength]
    by_cases hin : 0 < a ∧ a < v.nArray
    · have hrow : v.rows.tail.head.start + (a - 1) * v.rows.tail.stride
          = v.window.address a v.owned.start := by
        obtain ⟨b, rfl⟩ := Nat.exists_eq_succ_of_ne_zero hin.1.ne'
        simp only [Rows.tail, rows, address, Window.address, window, owned, hstep, Nat.succ_sub_one,
          Nat.succ_mul]
        omega
      have hstop : v.window.address a v.owned.start + v.rows.tail.head.length
          = v.window.address a v.owned.stop := Nat.add_assoc ..
      rw [if_pos hin, if_pos (by omega), hrow, hstop]
    · rw [if_neg hin, if_neg (by omega)]
      apply Vector.getElem_replicate
  have hhead : v.rows.head.stretch = .ok v.storage.out := by
    rw [Rows.stretch_eq_ok hstep]
    simp [rows, storage, address, Window.address, window, owned, hstep]
  simp only [rankStorage, bind, Except.bind, Rows.splitHead_eq_ok (r := v.rows) hn, hhead, hinputs,
    hsame]
  rfl

/-- There is no storage of records that don't lie side by side. -/
theorem rankStorage_eq_error (hn : 0 < v.nArray) (hrecords : 1 < v.nRecord) (hstep : v.step ≠ 1) :
  v.rankStorage = .error (.error .notContiguous)
  := by
  have hhead : v.rows.head.stretch = .error (.error .notContiguous) := by
    apply if_neg
    rintro (hfew | hside)
    · exact absurd hfew (Nat.not_le_of_gt hrecords)
    · exact hstep hside
  simp only [rankStorage, bind, Except.bind, Rows.splitHead_eq_ok (r := v.rows) hn, hhead]

/-- Whatever stretches a storage has, it owns the records of its view. -/
theorem owned_of_rankStorage {s : Storage} (h : v.rankStorage = .ok s) :
  s.owned = v.owned ∧ s.nArray = v.nArray
  := by
  obtain ⟨⟨head, tail⟩, -, h⟩ := of_bind_eq_ok h
  obtain ⟨out, -, h⟩ := of_bind_eq_ok h
  obtain ⟨inputs, -, h⟩ := of_bind_eq_ok h
  cases h
  exact ⟨rfl, rfl⟩

/-- If a view has a storage, then the window in its place is the window on the view. -/
theorem eq_window_of_openWindow {w : Window} (h : v.openWindow = .ok w) :
  w = v.window
  := by
  obtain ⟨s, hs, h⟩ := of_bind_eq_ok h
  obtain ⟨howned, hn⟩ := owned_of_rankStorage hs
  cases h
  rw [howned, hn]
  rfl

theorem openWindow_eq_ok (hn : 0 < v.nArray) (hstep : v.step = 1) :
  v.openWindow = .ok v.window
  := by
  rw [openWindow, rankStorage_eq_ok hn hstep]
  rfl

end View

end ReplicaSum
