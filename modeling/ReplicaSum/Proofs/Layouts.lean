import ReplicaSum.Proofs.Reduction
import ReplicaSum.Strided

/-!
# Sound layouts

A layout is sound for a slice if its arrays are few enough, don't overlap and end before the slice
does. The checks compute with counts and offsets of a fixed size, yet exactly the sound layouts
pass them. The records of a sound layout have places of their own in the slice, and its grid is
regular, so that no strided view turns it down.
-/

namespace ReplicaSum

theorem asOffset_eq_some {n len : Nat} (hlen : len * recordBytes ≤ largestOffset) (hn : n ≤ len) :
  asOffset n = some n
  := if_pos (Nat.le_trans (Nat.mul_le_mul_right _ hn) hlen)

theorem le_largestOffset {n : Nat} (hn : n * recordBytes ≤ largestOffset) :
  n ≤ largestOffset
  := Nat.le_trans (Nat.le_mul_of_pos_right _ (by decide)) hn

/-- A slice that can be had has fewer records than there are counts. -/
theorem lt_addressLimit {n : Nat} (hn : n * recordBytes ≤ largestOffset) :
  n < addressLimit
  := Nat.lt_of_le_of_lt (le_largestOffset hn) (by decide)

namespace Layout

variable {l : Layout} {len a a' i i' : Nat}

/-- The number of records from the start of the first array to the end of the last one. -/
def extent (l : Layout) : Nat := (l.nArray - 1) * l.stride + l.nRecord

/-- The arrays of a layout can be kept apart in a slice of `len` records. -/
structure Sound (l : Layout) (len : Nat) : Prop where
  nArray_pos : 1 ≤ l.nArray
  nArray_le : l.nArray ≤ maxArray
  nRecord_le : l.nArray = 1 ∨ l.nRecord ≤ l.stride
  extent_le : l.extent ≤ len

/-- There is no count for the length of a layout exactly if the length has no address. -/
theorem requiredLen_eq_none_iff :
  l.requiredLen = none ↔ 1 ≤ l.nArray ∧ addressLimit ≤ l.extent
  := by
  rcases Nat.eq_zero_or_pos l.nArray with hn | hn
  · rw [requiredLen, if_pos hn]
    simp only [reduceCtorEq, false_iff]
    omega
  · rw [requiredLen_eq_asCount hn, asCount_eq_none_iff, extent]
    simp only [iff_and_self]
    intro _
    apply hn

/-- In a slice that can be had, the check on the length is exact. -/
theorem fits_iff_extent_le (hn : 1 ≤ l.nArray) (hlen : len < addressLimit) :
  l.fits len = true ↔ l.extent ≤ len
  := by
  rw [fits_iff, requiredLen_eq_asCount hn, ← extent]
  constructor
  · rintro ⟨required, hrequired, hle⟩
    obtain ⟨-, rfl⟩ := asCount_eq_some_iff.mp hrequired
    apply hle
  · intro hle
    use l.extent, asCount_eq_some_iff.mpr ⟨Nat.lt_of_le_of_lt hle hlen, rfl⟩

namespace Sound

/-- An array starts where the layout puts its first record, no later than the last array does. -/
theorem mul_stride_le (h : l.Sound len) (ha : a < l.nArray) :
  a * l.stride + l.nRecord ≤ len
  := by
  have hmul : a * l.stride ≤ (l.nArray - 1) * l.stride := Nat.mul_le_mul_right _ (by omega)
  have hextent := h.extent_le
  rw [extent] at hextent
  omega

/-- The stride is no longer than the slice unless there is nothing that it keeps apart. -/
theorem stride_le (h : l.Sound len) (hn : l.nArray ≠ 1) :
  l.stride ≤ len
  := by
  have hpos := h.nArray_pos
  have hsecond := h.mul_stride_le (a := 1) (by omega)
  omega

/-- The slice has room for the records of all arrays. -/
theorem mul_nRecord_le (h : l.Sound len) :
  l.nArray * l.nRecord ≤ len
  := by
  have hextent := h.extent_le
  rw [extent] at hextent
  obtain ⟨k, hk⟩ : ∃ k, l.nArray = k + 1 := ⟨l.nArray - 1, by have := h.nArray_pos; omega⟩
  have hrows : k * l.nRecord ≤ k * l.stride := by
    rcases h.nRecord_le with hn | hn
    · obtain rfl : k = 0 := by omega
      simp
    · apply Nat.mul_le_mul_left _ hn
  rw [hk, Nat.add_sub_cancel] at hextent
  rw [hk, Nat.succ_mul]
  omega

theorem address_lt (h : l.Sound len) (ha : a < l.nArray) (hi : i < l.nRecord) :
  l.address a i < len
  := by
  have hle := h.mul_stride_le ha
  rw [address]
  omega

/-- No two records of a sound layout have the same place. -/
theorem address_inj (h : l.Sound len) (ha : a < l.nArray) (ha' : a' < l.nArray)
    (hi : i < l.nRecord) (hi' : i' < l.nRecord) (heq : l.address a i = l.address a' i') :
  a = a' ∧ i = i'
  := by
  simp only [address] at heq
  rcases h.nRecord_le with hn | hn
  · obtain rfl : a = a' := by omega
    exact ⟨rfl, by omega⟩
  · -- The array is the quotient by the stride, since no index reaches the stride.
    have hquotient : ∀ b j, j < l.nRecord → (b * l.stride + j) / l.stride = b := by
      intro b j hj
      rw [Nat.add_comm, Nat.add_mul_div_right _ _ (by omega), Nat.div_eq_of_lt (by omega),
        Nat.zero_add]
    obtain rfl : a = a' := by
      rw [← hquotient a i hi, heq, hquotient a' i' hi']
    exact ⟨rfl, by omega⟩

/-! ### The grid of a sound layout -/

theorem reach_grid (l : Layout) :
  l.grid.reach = (if l.nArray = 1 then 0 else (l.nArray - 1) * l.stride) + (l.nRecord - 1)
  := by
  rw [Grid.reach, Axis.reach, Axis.reach, grid]
  by_cases hn : l.nArray = 1
  · simp [hn]
  · simp [hn]

theorem reach_grid_le (h : l.Sound len) :
  l.grid.reach ≤ len
  := by
  have hextent := h.extent_le
  rw [extent] at hextent
  rw [reach_grid]
  split
  · omega
  · omega

theorem inBounds_grid (h : l.Sound len) :
  l.grid.InBounds len
  := by
  rw [Grid.InBounds]
  split
  · apply h.reach_grid_le
  · rename_i hne
    have hpos : l.nRecord ≠ 0 := fun hzero => hne (Or.inr hzero)
    have hextent := h.extent_le
    rw [extent] at hextent
    rw [reach_grid]
    split
    · omega
    · omega

/-- Steps to the next record are the shorter ones, and a step to the next array leads beyond the
last record. -/
theorem separated_grid (h : l.Sound len) (hpos : 0 < l.nRecord) :
  l.grid.Separated
  := by
  have hstride : 1 ≤ l.grid.rows.stride := by
    have := h.nRecord_le
    simp only [grid]
    split
    · omega
    · omega
  rw [Grid.Separated, if_neg (by simp only [grid] at hstride ⊢; omega)]
  constructor
  · right
    exact Nat.one_pos
  · rcases h.nRecord_le with hn | hn
    · left
      exact Nat.le_of_eq hn
    · right
      simp only [grid, Axis.reach]
      split
      · omega
      · omega

theorem addressable_grid (h : l.Sound len) (hlen : len * recordBytes ≤ largestOffset) :
  l.grid.Addressable
  := by
  have hle : len ≤ largestOffset := le_largestOffset hlen
  have hone : 1 ≤ largestOffset := by decide
  have heleven : maxArray ≤ largestOffset := by decide
  have hreach : l.grid.reach * recordBytes ≤ largestOffset :=
    Nat.le_trans (Nat.mul_le_mul_right _ h.reach_grid_le) hlen
  have hfirst : l.nRecord ≤ len := by
    have := h.mul_stride_le (a := 0) (by have := h.nArray_pos; omega)
    omega
  have hrows : max 1 l.nArray = l.nArray := Nat.max_eq_right h.nArray_pos
  refine ⟨?_, ⟨?_, hone⟩, hreach⟩
  · simp only [grid, hrows]
    rcases Nat.eq_zero_or_pos l.nRecord with hzero | hpos
    · rw [hzero, Nat.max_eq_left (Nat.zero_le 1), Nat.mul_one]
      apply Nat.le_trans h.nArray_le heleven
    · rw [Nat.max_eq_right hpos]
      apply Nat.le_trans h.mul_nRecord_le hle
  · simp only [grid]
    split
    · omega
    · have := h.stride_le ‹_›
      omega

theorem regular_grid (h : l.Sound len) (hlen : len * recordBytes ≤ largestOffset) :
  l.grid.Regular len
  := by
  refine ⟨h.addressable_grid hlen, h.inBounds_grid, ?_⟩
  rcases Nat.eq_zero_or_pos l.nRecord with hzero | hpos
  · left
    exact Or.inr hzero
  · right
    apply h.separated_grid hpos

/-- Where a grid has a record, the layout has it as well, and no offset on the way to it is too
large. -/
theorem position?_grid (h : l.Sound len) (hlen : len * recordBytes ≤ largestOffset)
    (ha : a < l.nArray) (hi : i < l.nRecord) :
  l.grid.position? a i = some (l.address a i)
  := by
  have hrow : a * l.grid.rows.stride = a * l.stride := by
    simp only [grid]
    split
    · obtain rfl : a = 0 := by omega
      simp
    · rfl
  have hlt := h.address_lt ha hi
  rw [address] at hlt ⊢
  have hcol : i * l.grid.cols.stride = i := Nat.mul_one i
  simp only [Grid.position?, hrow, hcol, bind, Option.bind,
    asOffset_eq_some hlen (Nat.le_trans (Nat.le_add_right _ i) (Nat.le_of_lt hlt)),
    asOffset_eq_some hlen (Nat.le_trans (Nat.le_add_left i _) (Nat.le_of_lt hlt)),
    asOffset_eq_some hlen (Nat.le_of_lt hlt)]

end Sound

end Layout

namespace View

variable {l : Layout} {len : Nat} {admits : Grid → Nat → Bool}

/-- The view `v` shows the whole of a layout. Its records are where the grid of the layout has them,
each in a place of its own within a slice of `len` records. -/
structure Spreads (l : Layout) (len : Nat) (v : View) : Prop where
  nArray_eq : v.nArray = l.nArray
  owned_eq : v.owned = ⟨0, l.nRecord⟩
  address_eq : ∀ a i, v.address a i = l.address a i
  position?_eq : ∀ a < l.nArray, ∀ i < l.nRecord, l.grid.position? a i = some (l.address a i)
  address_lt : ∀ a < l.nArray, ∀ i < l.nRecord, l.address a i < len
  address_inj : ∀ a < l.nArray, ∀ i < l.nRecord, ∀ a' < l.nArray, ∀ i' < l.nRecord,
    l.address a i = l.address a' i' → a = a' ∧ i = i'

/-- In a slice that can be had, exactly the sound layouts have a view. -/
theorem ofLayout_eq_ok_iff_sound (hlen : len < addressLimit) {v : View} :
  ofLayout l len = .ok v ↔ l.Sound len ∧ v = ⟨l.nArray, l.stride, 0, l.nRecord, 1⟩
  := by
  rw [ofLayout_eq_ok_iff]
  constructor
  · rintro ⟨⟨hpos, hle⟩, hstride, hfits, hv⟩
    refine ⟨⟨hpos, hle, by omega, ?_⟩, hv⟩
    apply (Layout.fits_iff_extent_le hpos hlen).mp hfits
  · rintro ⟨⟨hpos, hle, hstride, hextent⟩, hv⟩
    refine ⟨⟨hpos, hle⟩, by omega, ?_, hv⟩
    apply (Layout.fits_iff_extent_le hpos hlen).mpr hextent

/-- If no regular grid is turned down, only the check of the layout decides about a view. -/
theorem ofSlice_eq_ofLayout (hadmits : ∀ g len, g.Regular len → admits g len = true)
    (hlen : len * recordBytes ≤ largestOffset) :
  ofSlice admits l len = (ofLayout l len).mapError .layout
  := by
  rw [ofSlice]
  cases hcheck : l.check len with
  | error cause =>
    rw [ofLayout, hcheck]
    rfl
  | ok =>
    have hview : ofLayout l len = .ok ⟨l.nArray, l.stride, 0, l.nRecord, 1⟩ := by
      rw [ofLayout, hcheck]
    obtain ⟨hsound, -⟩ := (ofLayout_eq_ok_iff_sound (lt_addressLimit hlen)).mp hview
    rw [hview, if_pos (hadmits _ _ (hsound.regular_grid hlen))]
    rfl

theorem mapError_eq_ok_iff {ε ε' α : Type} {f : ε → ε'} {x : Except ε α} {a : α} :
  x.mapError f = .ok a ↔ x = .ok a
  := by
  cases x with
  | error cause => simp [Except.mapError]
  | ok b => simp [Except.mapError]

theorem spreads_of_sound (h : l.Sound len) (hlen : len * recordBytes ≤ largestOffset) :
  Spreads l len ⟨l.nArray, l.stride, 0, l.nRecord, 1⟩
  where
  nArray_eq := rfl
  owned_eq := by rw [owned, Nat.zero_add]
  address_eq a i := by rw [address, Layout.address, Nat.zero_add, Nat.mul_one]
  position?_eq _ ha _ hi := h.position?_grid hlen ha hi
  address_lt _ ha _ hi := h.address_lt ha hi
  address_inj _ ha _ hi _ ha' _ hi' heq := h.address_inj ha ha' hi hi' heq

/-- Suppose that strided views turn down no regular grid. Then in every slice that can be had,
exactly the sound layouts have a view. It shows the whole layout, with a place of its own for each
record, and a view that passes the check of its layout is always made. A context has a view in
exactly the slices that are as long as it requires, and there is such a length exactly if there is a
count for it. -/
theorem ofSlice_sound (hadmits : ∀ g len, g.Regular len → admits g len = true)
    (hlen : len * recordBytes ≤ largestOffset) :
  (∀ l : Layout,
    ((∃ v, ofSlice admits l len = .ok v) ↔ l.Sound len) ∧
    ofSlice admits l len ≠ .error .notMade ∧
    ofSlice admits l len = (ofLayout l len).mapError .layout ∧
    ∀ v, ofSlice admits l len = .ok v → v.Spreads l len) ∧
  ∀ c : Context,
    ((∃ v, c.view len = .ok v)
      ↔ 1 ≤ c.nArray ∧ ∃ required, c.layout.requiredLen = some required ∧ required ≤ len) ∧
    (c.layout.requiredLen = none ↔ 1 ≤ c.nArray ∧ addressLimit ≤ c.layout.extent)
  := by
  constructor
  · intro l
    have hslice : ofSlice admits l len = (ofLayout l len).mapError .layout :=
      ofSlice_eq_ofLayout hadmits hlen
    have hok : ∀ v, ofSlice admits l len = .ok v
        ↔ l.Sound len ∧ v = ⟨l.nArray, l.stride, 0, l.nRecord, 1⟩ := by
      intro v
      rw [hslice, mapError_eq_ok_iff, ofLayout_eq_ok_iff_sound (lt_addressLimit hlen)]
    refine ⟨⟨?_, ?_⟩, ?_, hslice, ?_⟩
    · rintro ⟨v, hv⟩
      apply ((hok v).mp hv).1
    · intro hsound
      exact ⟨_, (hok _).mpr ⟨hsound, rfl⟩⟩
    · rw [hslice]
      cases ofLayout l len with
      | error cause => simp [Except.mapError]
      | ok v => simp [Except.mapError]
    · intro v hv
      obtain ⟨hsound, rfl⟩ := (hok v).mp hv
      apply spreads_of_sound hsound hlen
  · intro c
    refine ⟨⟨?_, ?_⟩, Layout.requiredLen_eq_none_iff⟩
    · rintro ⟨v, hv⟩
      obtain ⟨hn, -⟩ := Context.eq_wholeView hv
      apply And.intro hn ((Context.view_eq_ok_iff hn).mp hv).2
    · rintro ⟨hn, hrequired⟩
      use c.wholeView, (Context.view_eq_ok_iff hn).mpr ⟨rfl, hrequired⟩

/-- Three arrays of four records, each followed by three records of padding but for the last one,
and one array with a stride that no strided view would take. -/
theorem ofSlice_sound_padded :
  ∃ admits : Grid → Nat → Bool, admits = (fun g len => decide (g.Regular len)) ∧
    (∃ v, ofSlice admits ⟨3, 4, 7⟩ 20 = .ok v ∧ v.Spreads ⟨3, 4, 7⟩ 20) ∧
    (∃ v, ofSlice admits ⟨1, 20, 0⟩ 20 = .ok v) ∧
    ¬ (∃ v, ofSlice admits ⟨3, 5, 8⟩ 20 = .ok v)
  := by
  use fun g len => decide (g.Regular len), rfl
  obtain ⟨hslice, -⟩ := @ofSlice_sound 20 (fun g len => decide (g.Regular len))
    (fun _ _ hg => decide_eq_true hg) (by decide)
  refine ⟨?_, ?_, ?_⟩
  · obtain ⟨hok, -, -, hspreads⟩ := hslice ⟨3, 4, 7⟩
    obtain ⟨v, hv⟩ := hok.mpr ⟨by decide, by decide, by decide, by decide⟩
    exact ⟨v, hv, hspreads v hv⟩
  · apply (hslice ⟨1, 20, 0⟩).1.mpr ⟨by decide, by decide, by decide, by decide⟩
  · intro hview
    have hextent := ((hslice ⟨3, 5, 8⟩).1.mp hview).extent_le
    revert hextent
    decide

end View

end ReplicaSum
