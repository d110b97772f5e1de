import ReplicaSum.Proofs.Views

/-!
# Splitting views

A view may be split again and again: parted after some of its records, or narrowed down to the share
of a rank. `Splitting` is the type of the trees of such splits. None of them fails, the views in use
are disjoint at any time, and every record keeps the index by which the layout knows it.
-/

namespace ReplicaSum

/-- How a view of `n` records is split. A view that is split is used up; a tree leaves the views at
its leaves in use, so a tree that is cut short leaves those that are in use meanwhile. -/
inductive Splitting : Nat → Type where
  /-- The view stays in use. -/
  | keep {n : Nat} : Splitting n
  /-- The view is parted after its first `len` records. -/
  | part {n : Nat} (len : Nat) (h : len ≤ n) (front : Splitting len) (back : Splitting (n - len)) :
      Splitting n
  /-- The share of a rank is selected from the records of the view. -/
  | select {n : Nat} (blockLen rank nRank : Nat) (hb : 0 < blockLen) (hr : rank < nRank)
      (mine : Splitting ((Partition.mk n blockLen nRank).owned rank).length) : Splitting n

namespace Splitting

/-- The views in use once a view has been split. -/
def views {n : Nat} : Splitting n → View → Except Violation (List View)
  | .keep, v => .ok [v]
  | .part len _ front back, v => do
    let (f, b) ← v.splitFront len
    return (← front.views f) ++ (← back.views b)
  | .select blockLen rank nRank _ _ mine, v => do
    mine.views (← v.selectRank blockLen rank nRank)

end Splitting

namespace View

variable {u v front back : View} {k : Nat}

/-- The view `u` shows some of the records that `v` shows, in the same arrays and under the
same indices. -/
structure Within (u v : View) : Prop where
  nArray_eq : u.nArray = v.nArray
  stride_eq : u.stride = v.stride
  step_eq : u.step = v.step
  start_le : v.owned.start ≤ u.owned.start
  stop_le : u.owned.stop ≤ v.owned.stop

namespace Within

theorem refl (v : View) : Within v v := ⟨rfl, rfl, rfl, Nat.le_refl _, Nat.le_refl _⟩

theorem trans {w : View} (h : Within u v) (h' : Within v w) : Within u w :=
  ⟨h.nArray_eq.trans h'.nArray_eq, h.stride_eq.trans h'.stride_eq, h.step_eq.trans h'.step_eq,
    Nat.le_trans h'.start_le h.start_le, Nat.le_trans h.stop_le h'.stop_le⟩

end Within

/-- The two parts of a view share out its records. -/
theorem splitFront_parts (hk : k ≤ v.nRecord) :
  ∃ front back, v.splitFront k = .ok (front, back) ∧ front.nRecord = k ∧
    back.nRecord = v.nRecord - k ∧ front.Within v ∧ back.Within v ∧
    front.owned = ⟨v.owned.start, v.owned.start + k⟩ ∧
    back.owned = ⟨v.owned.start + k, v.owned.stop⟩
  := by
  have hstop : v.start + k + (v.nRecord - k) = v.start + v.nRecord := by omega
  use { v with nRecord := k }, { v with start := v.start + k, nRecord := v.nRecord - k }
  use splitFront_eq_ok_iff.mpr ⟨hk, rfl, rfl⟩, rfl, rfl
  constructor
  · exact ⟨rfl, rfl, rfl, Nat.le_refl _, Nat.add_le_add_left hk _⟩
  constructor
  · exact ⟨rfl, rfl, rfl, Nat.le_add_right _ _, Nat.le_of_eq hstop⟩
  constructor
  · rfl
  · simp only [owned, hstop]

/-- Selecting the share of a rank gives the part of the view that belongs to the share. Neither of
the two splits on the way fails. -/
theorem selectRank_eq_ok (v : View) {blockLen rank nRank : Nat} (hb : 0 < blockLen)
    (hr : rank < nRank) :
  v.selectRank blockLen rank nRank
    = .ok (v.part ((Partition.mk v.nRecord blockLen nRank).owned rank))
  := by
  have hshare := Partition.owned?_eq_ok (p := ⟨v.nRecord, blockLen, nRank⟩) hb hr
  have hle := (Partition.mk v.nRecord blockLen nRank).owned_start_le_stop hr
  have hstop := (Partition.mk v.nRecord blockLen nRank).owned_stop_le hr
  rw [selectRank, hshare]
  generalize (Partition.mk v.nRecord blockLen nRank).owned rank = s at hle hstop
  have hskip : v.splitFront s.start = .ok ({ v with nRecord := s.start }, v.behind s.start) :=
    splitFront_eq_ok_iff.mpr ⟨Nat.le_trans hle hstop, rfl, rfl⟩
  simp only [bind, Except.bind, hskip, splitFront_behind hle hstop, pure, Except.pure]

/-- The part of a view that a span of its records describes lies within the view. -/
theorem part_within {s : Span} (hle : s.start ≤ s.stop) (hstop : s.stop ≤ v.nRecord) :
  (v.part s).Within v
  := by
  constructor
  · rfl
  · rfl
  · rfl
  · simp only [part, owned]
    omega
  · simp only [part, owned, Span.length]
    omega

theorem owned_part {s : Span} (hle : s.start ≤ s.stop) :
  (v.part s).owned = s.shift v.owned.start
  := by
  simp only [part, owned, Span.shift, Span.length, Span.mk.injEq]
  omega

end View

namespace Splitting

variable {n : Nat}

/-! ### Trees of splits -/

/-- Splitting never fails. The views in use lie within the view that was split, and no two of them
show the same record. -/
theorem views_eq_ok (t : Splitting n) {v : View} (hv : v.nRecord = n) :
  ∃ views, t.views v = .ok views ∧ (∀ u ∈ views, u.Within v) ∧
    views.Pairwise (fun u u' => ∀ i ∈ u.owned, i ∉ u'.owned)
  := by
  induction t generalizing v with
  | keep =>
    use [v], rfl
    constructor
    · intro u hu
      obtain rfl := List.mem_singleton.mp hu
      apply View.Within.refl
    · apply List.pairwise_singleton
  | part len h front back ihf ihb =>
    subst hv
    obtain ⟨f, b, hsplit, hnf, hnb, hf, hb, hfo, hbo⟩ := View.splitFront_parts h
    obtain ⟨fs, hfs, hinf, hpf⟩ := ihf hnf
    obtain ⟨bs, hbs, hinb, hpb⟩ := ihb hnb
    use fs ++ bs
    constructor
    · simp only [views, bind, Except.bind, hsplit, hfs, hbs, pure, Except.pure]
    constructor
    · intro u hu
      rcases List.mem_append.mp hu with hu | hu
      · apply (hinf u hu).trans hf
      · apply (hinb u hu).trans hb
    · apply List.pairwise_append.mpr
      refine ⟨hpf, hpb, ?_⟩
      -- Views of the front stop where views of the back start at the earliest.
      intro u hu u' hu' i hi hi'
      have hstop : u.owned.stop ≤ f.owned.stop := (hinf u hu).stop_le
      have hstart : b.owned.start ≤ u'.owned.start := (hinb u' hu').start_le
      simp only [hfo, hbo] at hstop hstart
      rw [Span.mem_iff] at hi hi'
      omega
  | select blockLen rank nRank hb hr mine ih =>
    subst hv
    have hle := (Partition.mk v.nRecord blockLen nRank).owned_start_le_stop hr
    have hstop := (Partition.mk v.nRecord blockLen nRank).owned_stop_le hr
    obtain ⟨us, hus, hin, hp⟩ :=
      ih (v := v.part ((Partition.mk v.nRecord blockLen nRank).owned rank)) rfl
    use us
    constructor
    · simp only [views, bind, Except.bind, View.selectRank_eq_ok v hb hr, hus]
    constructor
    · intro u hu
      apply (hin u hu).trans (View.part_within hle hstop)
    · apply hp

end Splitting

namespace View

variable {l : Layout} {data : Data} {u v : View} {a size : Nat}

/-! ### Global indices -/

/-- What shows a part of a view that fits a slice fits the slice. -/
theorem Within.fits (hu : u.Within v) (h : v.window.Fits size) :
  u.window.Fits size
  := by
  obtain ⟨h₁, h₂, h₃⟩ := h
  have hstop := hu.stop_le
  simp only [window] at h₁ h₂ h₃
  constructor
  · simp only [window, hu.nArray_eq]
    apply h₁
  · simp only [window, hu.nArray_eq, hu.stride_eq]
    omega
  · simp only [window, hu.nArray_eq, hu.stride_eq]
    omega

/-- The records of a slice from position `b` on, one after the other. -/
theorem filterMap_range_getElem? (data : Data) (b n : Nat) :
  (Array.range n).filterMap (fun i => data[b + i]?) = data.extract b (b + n)
  := by
  have hlist : (List.range n).filterMap (fun i => data[b + i]?) = (data.toList.drop b).take n := by
    induction n with
    | zero => rfl
    | succ n ih =>
      rw [List.range_succ, List.filterMap_append, ih, List.take_add_one, List.getElem?_drop]
      cases h : data[b + n]? <;> simp [h]
  apply Array.ext'
  rw [Array.toList_filterMap, Array.toList_range, hlist, Array.toList_extract,
    List.extract_eq_take_drop, Nat.add_sub_cancel_left]

/-- If the records of a view lie side by side, an array of it consists of the records that the
window on the view has of it. -/
theorem array_eq_ok (data : Data) (ha : a < u.nArray) (hstep : u.step = 1) :
  u.array data a = .ok (u.window.block data a u.owned)
  := by
  have haddress : ∀ i, u.address a i = u.window.address a u.owned.start + i := by
    intro i
    simp only [address, Window.address, window, owned, hstep]
    omega
  have hstop : u.window.address a u.owned.start + u.nRecord = u.window.address a u.owned.stop :=
    Nat.add_assoc ..
  rw [array, if_pos ha]
  simp only [haddress]
  rw [filterMap_range_getElem?, hstop]
  rfl

/-- The view `u` of a slice shows a part of a layout, and its records go by the indices that they
have in the layout. So do the records of its storage, and of the window in place of the storage. -/
structure Faithful (l : Layout) (data : Data) (u : View) : Prop where
  nArray_eq : u.nArray = l.nArray
  length_owned : u.owned.length = u.nRecord
  stop_le : u.owned.stop ≤ l.nRecord
  /-- A record of an array is the one that the slice holds where the layout puts its index. -/
  array : ∀ a < l.nArray, ∃ records, u.array data a = .ok records ∧ records.size = u.nRecord ∧
    ∀ i < u.nRecord, ∃ record, data[l.address a (u.owned.start + i)]? = some record ∧
      records[i]? = some record
  /-- The rows of the view lie side by side, each of them where the layout puts its records. -/
  storage : ∃ s, u.rankStorage = .ok s ∧ s.owned = u.owned ∧ s.nArray = u.nArray ∧
    ∀ a < l.nArray,
      s.stretch a = .ok ⟨l.address a u.owned.start, l.address a u.owned.stop⟩
  window : u.openWindow = .ok u.window
  owned_window : u.window.owned = u.owned
  nArray_window : u.window.nArray = u.nArray
  window_fits : u.window.Fits data.size
  block_window : ∀ a < l.nArray, u.array data a = .ok (u.window.block data a u.window.owned)

/-- What shows a part of the view of a layout is faithful to the layout. -/
theorem Within.faithful (hu : u.Within v) (h : View.ofLayout l data.size = .ok v) :
  u.Faithful l data
  := by
  have hfits : u.window.Fits data.size := hu.fits (Of.ofLayout h).fits
  obtain ⟨hn, -, -, rfl⟩ := ofLayout_eq_ok_iff.mp h
  have hnArray : u.nArray = l.nArray := hu.nArray_eq
  have hstep : u.step = 1 := hu.step_eq
  have haddress : ∀ a i, u.window.address a i = l.address a i := by
    intro a i
    rw [Window.address, Layout.address, window, hu.stride_eq]
  have hstop : u.owned.stop ≤ l.nRecord := by
    have := hu.stop_le
    simpa only [owned, Nat.zero_add] using this
  have hlen : u.owned.length = u.nRecord := Nat.add_sub_cancel_left _ _
  constructor
  · apply hnArray
  · apply hlen
  · apply hstop
  · intro a ha
    have hend : u.window.address a u.owned.stop ≤ data.size :=
      hfits.address_le (hnArray.symm ▸ ha : a < u.nArray) (Nat.le_refl _)
    have hsize : (u.window.block data a u.owned).size = u.nRecord := by
      rw [Window.size_block hend, hlen]
    use u.window.block data a u.owned, array_eq_ok data (hnArray ▸ ha) hstep, hsize
    intro i hi
    use (u.window.block data a u.owned)[i]
    constructor
    · rw [← haddress, ← Array.getElem?_eq_getElem, Window.getElem?_block, if_pos (by omega)]
    · apply Array.getElem?_eq_getElem
  · use u.storage, rankStorage_eq_ok (hnArray ▸ hn.1) hstep, rfl, rfl
    intro a ha
    rw [stretch_storage (hnArray ▸ ha) (hnArray ▸ hn.2), haddress, haddress]
  · apply openWindow_eq_ok (hnArray ▸ hn.1) hstep
  · rfl
  · rfl
  · apply hfits
  · intro a ha
    apply array_eq_ok data (hnArray ▸ ha) hstep

end View

namespace Splitting

variable {l : Layout} {data : Data} {v : View}

/-- However the view of a layout is split, no split fails, and the views in use are faithful to the
layout and have no record in common. Each of them can be split further: its parts share out its
records, and so does the share of a rank belong to it. -/
theorem views_faithful (h : View.ofLayout l data.size = .ok v) (t : Splitting l.nRecord) :
  ∃ views, t.views v = .ok views ∧
    views.Pairwise (fun u u' => ∀ i ∈ u.owned, i ∉ u'.owned) ∧
    ∀ u ∈ views, u.Faithful l data ∧
      (∀ k ≤ u.nRecord, ∃ front back, u.splitFront k = .ok (front, back) ∧
        front.owned = ⟨u.owned.start, u.owned.start + k⟩ ∧
        back.owned = ⟨u.owned.start + k, u.owned.stop⟩) ∧
      ∀ blockLen rank nRank, 0 < blockLen → rank < nRank →
        ∃ mine, u.selectRank blockLen rank nRank = .ok mine ∧
          mine.owned
            = ((Partition.mk u.nRecord blockLen nRank).owned rank).shift u.owned.start
  := by
  have hv : v.nRecord = l.nRecord := by
    obtain ⟨-, -, -, rfl⟩ := View.ofLayout_eq_ok_iff.mp h
    rfl
  obtain ⟨views, hviews, hwithin, hdisjoint⟩ := t.views_eq_ok hv
  use views, hviews, hdisjoint
  intro u hu
  constructor
  · apply (hwithin u hu).faithful h
  constructor
  · intro k hk
    obtain ⟨front, back, hsplit, -, -, -, -, hfront, hback⟩ := View.splitFront_parts hk
    use front, back
  · intro blockLen rank nRank hb hr
    have hle := (Partition.mk u.nRecord blockLen nRank).owned_start_le_stop hr
    use u.part ((Partition.mk u.nRecord blockLen nRank).owned rank)
    use u.selectRank_eq_ok hb hr
    apply View.owned_part hle

/-- Two arrays of five records, the second of which starts after a record of padding. The share of
the second of two ranks starts at record `2`; its back part still finds record `3` of the second
array at position `9`. -/
theorem views_faithful_share_parted :
  ∃ data : Data, data = (Array.range 11).map (fun i => Lanes.splat (Float32.ofNat i)) ∧
    ∃ t : Splitting 5,
      t = .select 2 1 2 (by decide) (by decide) (.part 1 (by decide) .keep .keep) ∧
      t.views ⟨2, 6, 0, 5, 1⟩ = .ok [⟨2, 6, 2, 1, 1⟩, ⟨2, 6, 3, 2, 1⟩] ∧
      ∃ records, View.array ⟨2, 6, 3, 2, 1⟩ data 1 = .ok records ∧ records[0]? = data[9]?
  := by
  use (Array.range 11).map (fun i => Lanes.splat (Float32.ofNat i)), rfl
  use .select 2 1 2 (by decide) (by decide) (.part 1 (by decide) .keep .keep), rfl
  have hsize : ((Array.range 11).map (fun i => Lanes.splat (Float32.ofNat i))).size = 11 := by
    rw [Array.size_map, Array.size_range]
  have hview : View.ofLayout ⟨2, 5, 6⟩
      ((Array.range 11).map (fun i => Lanes.splat (Float32.ofNat i))).size
      = .ok ⟨2, 6, 0, 5, 1⟩ := by
    rw [hsize]
    rfl
  obtain ⟨views, hviews, -, hfaithful⟩ := views_faithful hview
    (.select 2 1 2 (by decide) (by decide) (.part 1 (by decide) .keep .keep))
  obtain rfl : [⟨2, 6, 2, 1, 1⟩, ⟨2, 6, 3, 2, 1⟩] = views := Except.ok.inj hviews
  use hviews
  obtain ⟨records, hrecords, -, hrecord⟩ :=
    (hfaithful ⟨2, 6, 3, 2, 1⟩ (.tail _ (.head _))).1.array 1 (by decide)
  obtain ⟨record, hdata, hshown⟩ := hrecord 0 (by decide)
  use records, hrecords
  apply hshown.trans hdata.symm

end Splitting

end ReplicaSum
