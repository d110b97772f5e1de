import ReplicaSum.Proofs.Reduction
import ReplicaSum.Proofs.Splitting

/-!
# The views of the ranks

There are two ways to come by the view of a rank. One goes to where the share of the rank starts and
cuts it out. The other cuts the shares of all ranks off the front of the view, one after the other,
and knows of each share only how long it is. Since the shares tile the records, the two agree.
-/

namespace ReplicaSum

open ReduceM (Ends)

/-! ### Cutting along spans -/

/-- `CutsAlong v spans views rest`: the given spans are cut off the front of `v` one after the
other, each of them where it starts. That gives `views`, and `rest` remains. -/
inductive View.CutsAlong : View → List Span → List View → View → Prop where
  | nil (v : View) : CutsAlong v [] [] v
  | cons {v front back rest : View} {s : Span} {spans : List Span} {views : List View}
      (hstart : v.owned.start = s.start) (hsplit : v.splitFront s.length = .ok (front, back))
      (tail : CutsAlong back spans views rest) : CutsAlong v (s :: spans) (front :: views) rest

namespace View

variable {v rest : View} {views : List View} {spans : List Span} {start stop : Nat}

theorem CutsAlong.cut_eq_ok (h : v.CutsAlong spans views rest) :
  v.cut spans = .ok views
  := by
  induction h with
  | nil => rfl
  | cons _ hsplit _ ih => simp only [cut, hsplit, bind, Except.bind, ih, pure, Except.pure]

/-- A view whose records start at `0` is cut along any spans that tile its records. -/
theorem cutsAlong_of_tiles (h : Span.Tiles start stop spans) (hv : v.start = 0)
    (hstop : stop ≤ v.nRecord) :
  (v.behind start).CutsAlong spans (spans.map v.part) (v.behind stop)
  := by
  induction h with
  | nil start => apply CutsAlong.nil
  | @cons s stop spans hs tail ih =>
    have hstart : (v.behind s.start).owned.start = s.start := by
      rw [owned, behind, hv, Nat.zero_add]
    exact .cons hstart (splitFront_behind hs (tail.le.trans hstop)) (ih hstop)

/-- If the records of a view lie side by side, then so do those of its parts, each of them where the
view has them. -/
theorem array_part_eq_ok (data : Data) {a : Nat} (ha : a < v.nArray) (hstep : v.step = 1) {s : Span}
    (hle : s.start ≤ s.stop) :
  (v.part s).array data a = .ok (data.extract (v.address a s.start) (v.address a s.stop))
  := by
  have haddress : ∀ i, (v.part s).window.address a (v.start + i) = v.address a i := by
    intro i
    simp only [Window.address, window, part, address, hstep, Nat.mul_one]
  have hstop : v.start + s.start + (s.stop - s.start) = v.start + s.stop := by omega
  rw [array_eq_ok (u := v.part s) data ha hstep, Window.block]
  simp only [owned, part, Span.length, hstop]
  rw [← haddress, ← haddress]
  rfl

/-- One after the other, the records that the parts of a view show of an array are those that the
view shows of it. -/
theorem mapM_array_parts (data : Data) {a : Nat} (ha : a < v.nArray) (hstep : v.step = 1)
    (h : Span.Tiles start stop spans) :
  ∃ parts, (spans.map v.part).mapM (·.array data a) = .ok parts ∧
    parts.flatMap Array.toList = (data.extract (v.address a start) (v.address a stop)).toList
  := by
  induction h with
  | nil start =>
    use [], rfl
    rw [Array.extract_empty_of_stop_le_start (Nat.le_refl _)]
    rfl
  | @cons s stop spans hs tail ih =>
    obtain ⟨parts, hparts, hflat⟩ := ih
    have haddress : ∀ {i j : Nat}, i ≤ j → v.address a i ≤ v.address a j := by
      intro i j hij
      apply Nat.add_le_add_left (Nat.mul_le_mul_right _ (Nat.add_le_add_left hij _))
    use data.extract (v.address a s.start) (v.address a s.stop) :: parts
    constructor
    · simp only [List.map_cons, List.mapM_cons, array_part_eq_ok data ha hstep hs, bind,
        Except.bind, hparts, pure, Except.pure]
    · rw [List.flatMap_cons, hflat, ← Array.toList_append, Array.extract_append_extract,
        Nat.min_eq_left (haddress hs), Nat.max_eq_right (haddress tail.le)]

/-- On a view that shows the records from `o` on, a rank owns its share moved up by `o`, and finds
each record where the view has it. -/
theorem selectRank_owned {o k blockLen rank nRank : Nat} (hv : v.owned = ⟨o, o + k⟩)
    (hb : 0 < blockLen) (hr : rank < nRank) :
  ∃ mine, v.selectRank blockLen rank nRank = .ok mine ∧ mine.nArray = v.nArray ∧
    mine.owned = ((Partition.mk k blockLen nRank).owned rank).shift o ∧
    ∀ a i, mine.address a i
      = v.address a (((Partition.mk k blockLen nRank).owned rank).start + i)
  := by
  obtain ⟨rfl, rfl⟩ : v.start = o ∧ v.nRecord = k := by
    simp only [owned, Span.mk.injEq] at hv
    omega
  have hle := (Partition.mk v.nRecord blockLen nRank).owned_start_le_stop hr
  use v.part ((Partition.mk v.nRecord blockLen nRank).owned rank)
  use v.selectRank_eq_ok hb hr, rfl, owned_part hle
  intro a i
  simp only [address, part, Nat.add_assoc]

end View

/-- Splitting the view of a layout among ranks gives each rank the view that it would select for
itself: it shows the share of the rank, and its records lie where the layout puts them. The running
rest of the view starts where the share of the next rank does, so that the share comes off the
front, and in the end nothing is left. One after the other, the views show every array in full. A
context hands out the same views. A rank selects its share also of views that have been split
before, whose records start elsewhere. -/
theorem View.splitViews_selectRank {l : Layout} {data : Data} {v : View} {blockLen nRank : Nat}
    (h : View.ofLayout l data.size = .ok v) (hb : 0 < blockLen) (hn : 0 < nRank) :
  (∃ views rest,
    (∀ events, Ends (splitViews v blockLen nRank) ⟨data, events⟩ (.ok views)
      ⟨data, events ++ (Partition.mk v.nRecord blockLen nRank).idleWarnings⟩) ∧
    views.length = nRank ∧
    (∀ rank < nRank, ∃ mine,
      v.selectRank blockLen rank nRank = .ok mine ∧ views[rank]? = some mine ∧
      mine.owned = (Partition.mk v.nRecord blockLen nRank).owned rank ∧ mine.Faithful l data) ∧
    v.CutsAlong (Partition.mk v.nRecord blockLen nRank).shares views rest ∧
    rest.nRecord = 0 ∧
    (∀ a < v.nArray, ∃ parts whole,
      views.mapM (·.array data a) = .ok parts ∧ v.array data a = .ok whole ∧
        parts.flatMap Array.toList = whole.toList) ∧
    ∀ c : Context, c.layout = l → c.blockLen = blockLen → ∀ events,
      Ends (c.rankViews nRank) ⟨data, events⟩ (.ok views)
        ⟨data, events ++ (c.partition nRank).idleWarnings⟩) ∧
  ∀ (u : View) (o k rank : Nat), u.owned = ⟨o, o + k⟩ → rank < nRank →
    ∃ mine, u.selectRank blockLen rank nRank = .ok mine ∧ mine.nArray = u.nArray ∧
      mine.owned = ((Partition.mk k blockLen nRank).owned rank).shift o ∧
      ∀ a i, mine.address a i
        = u.address a (((Partition.mk k blockLen nRank).owned rank).start + i)
  := by
  have htiles := (Partition.mk v.nRecord blockLen nRank).shares_tiles hn
  have hstep : v.step = 1 := (Of.ofLayout h).step_eq
  have hstart : v.start = 0 := by
    obtain ⟨-, -, -, rfl⟩ := ofLayout_eq_ok_iff.mp h
    rfl
  constructor
  · use (Partition.mk v.nRecord blockLen nRank).shares.map v.part, v.behind v.nRecord
    constructor
    · intro events
      apply ends_splitViews v blockLen hn
    constructor
    · rw [List.length_map, Partition.length_shares]
    constructor
    · intro rank hr
      have hle := (Partition.mk v.nRecord blockLen nRank).owned_start_le_stop hr
      have hstop := (Partition.mk v.nRecord blockLen nRank).owned_stop_le hr
      use v.part ((Partition.mk v.nRecord blockLen nRank).owned rank), v.selectRank_eq_ok hb hr
      constructor
      · rw [List.getElem?_map, Partition.shares, List.getElem?_map, List.getElem?_range hr]
        rfl
      constructor
      · rw [owned_part hle, owned, hstart]
        rfl
      · apply (part_within hle hstop).faithful h
    use cutsAlong_of_tiles htiles hstart (Nat.le_refl _), Nat.sub_self _
    constructor
    · intro a ha
      obtain ⟨parts, hparts, hflat⟩ := mapM_array_parts data ha hstep htiles
      have hwhole := array_part_eq_ok (s := ⟨0, v.nRecord⟩) data ha hstep (Nat.zero_le _)
      exact ⟨parts, _, hparts, hwhole, hflat⟩
    · rintro c rfl rfl events
      have hview : c.view (World.mk data events).data.size = .ok v :=
        Context.view_eq_ok_iff_ofLayout.mpr h
      obtain ⟨-, rfl⟩ := Context.eq_wholeView hview
      apply Context.ends_rankViews hn hview
  · intro u o k rank hu hr
    apply selectRank_owned hu hb hr

/-- Three ranks share two arrays of two blocks and a tail, and the second rank gets nothing. Of a
view of the last six records, the second of two ranks owns what doesn't fill a block of four. -/
theorem View.splitViews_selectRank_two_blocks :
  ∃ data : Data, data = Array.replicate 140 (Lanes.splat 1.5) ∧
    View.ofLayout ⟨2, 70, 70⟩ data.size = .ok ⟨2, 70, 0, 70, 1⟩ ∧
    (∀ events, Ends (splitViews ⟨2, 70, 0, 70, 1⟩ 32 3) ⟨data, events⟩
      (.ok [⟨2, 70, 0, 32, 1⟩, ⟨2, 70, 32, 0, 1⟩, ⟨2, 70, 32, 38, 1⟩])
      ⟨data, events ++ [.idleRanks 1 ⟨70, 32, 3⟩]⟩) ∧
    View.selectRank ⟨2, 70, 0, 70, 1⟩ 32 2 3 = .ok ⟨2, 70, 32, 38, 1⟩ ∧
    ∃ mine, View.selectRank ⟨2, 70, 64, 6, 1⟩ 4 1 2 = .ok mine ∧ mine.owned = ⟨68, 70⟩
  := by
  have hview : View.ofLayout ⟨2, 70, 70⟩ (Array.replicate 140 (Lanes.splat 1.5) : Data).size
      = .ok ⟨2, 70, 0, 70, 1⟩ := by
    rw [Array.size_replicate]
    rfl
  obtain ⟨views, rest, hsplit, -, hselect, hcuts, -⟩ :=
    (splitViews_selectRank hview (Nat.succ_pos 31) (Nat.succ_pos 2)).1
  obtain rfl : [⟨2, 70, 0, 32, 1⟩, ⟨2, 70, 32, 0, 1⟩, ⟨2, 70, 32, 38, 1⟩] = views :=
    Except.ok.inj hcuts.cut_eq_ok
  use Array.replicate 140 (Lanes.splat 1.5), rfl, hview, hsplit
  constructor
  · obtain ⟨mine, hmine, hentry, -⟩ := hselect 2 (by decide)
    cases hentry
    exact hmine
  · obtain ⟨mine, hmine, -, howned, -⟩ :=
      (splitViews_selectRank hview (Nat.succ_pos 3) (Nat.succ_pos 1)).2 ⟨2, 70, 64, 6, 1⟩ 64 6 1
        rfl (by decide)
    use mine, hmine, howned

end ReplicaSum
