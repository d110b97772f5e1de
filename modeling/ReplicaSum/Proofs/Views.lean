import ReplicaSum.Proofs.Footprint
import ReplicaSum.Proofs.Rows
import ReplicaSum.Proofs.Tiling

/-!
# The views of a slice

A view of a slice is the view of a layout that the slice holds, or a part of such a view. Its window
fits the slice, and the ranks of a partition share out its records.
-/

namespace ReplicaSum

theorem asCount_eq_some_iff {m n : Nat} :
  asCount n = some m ↔ n < addressLimit ∧ n = m
  := by
  rw [asCount, Option.ite_none_right_eq_some, Option.some.injEq]

theorem asCount_eq_none_iff {n : Nat} :
  asCount n = none ↔ addressLimit ≤ n
  := by
  rw [asCount, ite_eq_right_iff]
  simp

/-- Only the end of the last array can be too large: it lies behind the start. -/
theorem Layout.requiredLen_eq_asCount {l : Layout} (hn : 0 < l.nArray) :
  l.requiredLen = asCount ((l.nArray - 1) * l.stride + l.nRecord)
  := by
  rw [requiredLen, if_neg (by omega)]
  cases hlast : asCount ((l.nArray - 1) * l.stride) with
  | none =>
    have hle := asCount_eq_none_iff.mp hlast
    exact (asCount_eq_none_iff.mpr (by omega)).symm
  | some last =>
    obtain ⟨-, rfl⟩ := asCount_eq_some_iff.mp hlast
    rfl

/-- A layout needs a slice that reaches to the end of its last array. -/
theorem Layout.eq_of_requiredLen {l : Layout} {required : Nat} (hn : 0 < l.nArray)
    (h : l.requiredLen = some required) :
  required = (l.nArray - 1) * l.stride + l.nRecord
  := by
  rw [requiredLen_eq_asCount hn] at h
  apply (asCount_eq_some_iff.mp h).2.symm

/-- A slice holds a layout if it is as long as the layout requires. -/
theorem Layout.fits_iff {l : Layout} {len : Nat} :
  l.fits len = true ↔ ∃ required, l.requiredLen = some required ∧ required ≤ len
  := by
  rw [fits]
  cases l.requiredLen with
  | none => simp
  | some required => simp

namespace View

/-- The views of a slice of `len` records: those of the layouts that it holds, and the parts into
which views of it are split. -/
inductive Of (len : Nat) : View → Prop where
  | ofLayout {l : Layout} {v : View} (h : View.ofLayout l len = .ok v) : Of len v
  | front {v front back : View} {k : Nat} (hv : Of len v)
      (h : v.splitFront k = .ok (front, back)) : Of len front
  | back {v front back : View} {k : Nat} (hv : Of len v)
      (h : v.splitFront k = .ok (front, back)) : Of len back

variable {l : Layout} {v front back : View} {len k : Nat}

/-- A layout has a view in the slices that it fits. -/
theorem ofLayout_eq_ok_iff :
  ofLayout l len = .ok v
    ↔ (0 < l.nArray ∧ l.nArray ≤ maxArray) ∧ (l.nArray ≤ 1 ∨ l.nRecord ≤ l.stride)
      ∧ l.fits len = true ∧ v = ⟨l.nArray, l.stride, 0, l.nRecord, 1⟩
  := by
  rw [ofLayout, Layout.check]
  split
  · rename_i v' hcheck
    split at hcheck
    · cases hcheck
    · split at hcheck
      · cases hcheck
      · split at hcheck
        · simp only [Except.ok.injEq]
          constructor
          · rintro rfl
            refine ⟨by omega, by omega, ‹_›, rfl⟩
          · rintro ⟨-, -, -, rfl⟩
            rfl
        · cases hcheck
  · rename_i cause hcheck
    simp only [reduceCtorEq, false_iff]
    rintro ⟨hn, hs, hfits, -⟩
    rw [if_neg (by omega), if_neg (by omega), if_pos hfits] at hcheck
    cases hcheck

theorem splitFront_eq_ok_iff :
  v.splitFront k = .ok (front, back)
    ↔ k ≤ v.nRecord ∧ front = { v with nRecord := k }
      ∧ back = { v with start := v.start + k, nRecord := v.nRecord - k }
  := by
  rw [splitFront]
  split
  · rename_i hk
    simp only [Except.ok.injEq, Prod.mk.injEq]
    constructor
    · rintro ⟨rfl, rfl⟩
      exact ⟨hk, rfl, rfl⟩
    · rintro ⟨-, rfl, rfl⟩
      exact ⟨rfl, rfl⟩
  · rename_i hk
    simp only [reduceCtorEq, false_iff]
    rintro ⟨hk', -⟩
    apply hk hk'

theorem Of.nArray_pos (h : Of len v) :
  0 < v.nArray
  := by
  induction h with
  | ofLayout h =>
    obtain ⟨hn, -, -, rfl⟩ := ofLayout_eq_ok_iff.mp h
    apply hn.1
  | front _ h ih =>
    obtain ⟨-, rfl, -⟩ := splitFront_eq_ok_iff.mp h
    apply ih
  | back _ h ih =>
    obtain ⟨-, -, rfl⟩ := splitFront_eq_ok_iff.mp h
    apply ih

/-- The records that a view shows of an array lie side by side: the layouts of a slice have them so,
and a part has what the whole has. -/
theorem Of.step_eq (h : Of len v) :
  v.step = 1
  := by
  induction h with
  | ofLayout h =>
    obtain ⟨-, -, -, rfl⟩ := ofLayout_eq_ok_iff.mp h
    rfl
  | front _ h ih =>
    obtain ⟨-, rfl, -⟩ := splitFront_eq_ok_iff.mp h
    apply ih
  | back _ h ih =>
    obtain ⟨-, -, rfl⟩ := splitFront_eq_ok_iff.mp h
    apply ih

/-- A view of a slice has a window in place of its storage. -/
theorem Of.openWindow_eq_ok (h : Of len v) :
  v.openWindow = .ok v.window
  := View.openWindow_eq_ok h.nArray_pos h.step_eq

/-- The window of a view fits the slice. -/
theorem Of.fits (h : Of len v) :
  v.window.Fits len
  := by
  induction h with
  | @ofLayout l v h =>
    obtain ⟨hn, hs, hfits, rfl⟩ := ofLayout_eq_ok_iff.mp h
    have hlen : (l.nArray - 1) * l.stride + l.nRecord ≤ len := by
      obtain ⟨required, hrequired, hle⟩ := Layout.fits_iff.mp hfits
      rw [← Layout.eq_of_requiredLen hn.1 hrequired]
      apply hle
    constructor
    · apply hn.2
    · simp only [window, owned, Nat.zero_add]
      apply hs
    · simp only [window, owned, Nat.zero_add]
      apply hlen
  | front _ h ih =>
    obtain ⟨hk, rfl, -⟩ := splitFront_eq_ok_iff.mp h
    obtain ⟨h₁, h₂, h₃⟩ := ih
    simp only [window, owned] at h₁ h₂ h₃
    constructor
    · apply h₁
    · simp only [window, owned]
      omega
    · simp only [window, owned]
      omega
  | back _ h ih =>
    obtain ⟨hk, -, rfl⟩ := splitFront_eq_ok_iff.mp h
    obtain ⟨h₁, h₂, h₃⟩ := ih
    simp only [window, owned] at h₁ h₂ h₃
    have hstop := Nat.add_sub_cancel' hk
    constructor
    · apply h₁
    · simp only [window, owned, Nat.add_assoc, hstop]
      apply h₂
    · simp only [window, owned, Nat.add_assoc, hstop]
      apply h₃

/-! ### Ranks -/

/-- The part of a view that shows the records of a span, counted from the start of the view. -/
def part (v : View) (s : Span) : View :=
  { v with start := v.start + s.start, nRecord := s.length }

/-- What a view shows behind its first `k` records. -/
def behind (v : View) (k : Nat) : View :=
  { v with start := v.start + k, nRecord := v.nRecord - k }

/-- The part that belongs to a span comes off the front once the records before it are gone. -/
theorem splitFront_behind {s : Span} (hle : s.start ≤ s.stop) (hstop : s.stop ≤ v.nRecord) :
  (v.behind s.start).splitFront s.length = .ok (v.part s, v.behind s.stop)
  := by
  apply splitFront_eq_ok_iff.mpr
  simp only [part, behind, Span.length, View.mk.injEq, true_and, and_true]
  omega

/-- A view is cut into the parts that a tiling of its records describes. -/
theorem cut_eq_ok {start stop : Nat} {spans : List Span} (h : Span.Tiles start stop spans)
    (hstop : stop ≤ v.nRecord) :
  (v.behind start).cut spans = .ok (spans.map v.part)
  := by
  induction h with
  | nil => rfl
  | @cons s stop rest hs tail ih =>
    rw [cut, splitFront_behind hs (tail.le.trans hstop)]
    simp only [bind, Except.bind, ih hstop, pure, Except.pure, List.map_cons]

/-- The ranks of a partition share out the records of a view. -/
theorem splitRanks_eq_ok (v : View) (blockLen : Nat) {nRank : Nat} (h : 0 < nRank) :
  v.splitRanks blockLen nRank
    = .ok ((Partition.mk v.nRecord blockLen nRank).shares.map v.part)
  := by
  have htiles := (Partition.mk v.nRecord blockLen nRank).shares_tiles h
  apply cut_eq_ok htiles (Nat.le_refl _)

end View

end ReplicaSum
