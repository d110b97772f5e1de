import ReplicaSum.Proofs.Processes
import ReplicaSum.Proofs.Views

/-!
# Shares of a view

The ranks of a reduction see the same arrays, each through a window on its own share of the records.
Windows on disjoint shares have disjoint footprints. Ranks that reduce disjoint shares side by side
therefore reduce their union, in whatever order they take their steps.
-/

namespace ReplicaSum

/-! ### Windows on shares -/

namespace Window

variable {s s' : Span} {nArray stride size k : Nat}

/-- Windows on disjoint records of the same arrays have disjoint footprints. -/
theorem disjoint_footprint (h : Fits ⟨s, nArray, stride⟩ size) (h' : Fits ⟨s', nArray, stride⟩ size)
    (hdisjoint : ∀ i ∈ s, i ∉ s') (hk : Footprint ⟨s, nArray, stride⟩ k) :
  ¬ Footprint ⟨s', nArray, stride⟩ k
  := by
  obtain ⟨a, ha, i, hi, rfl⟩ := hk
  rintro ⟨b, hb, j, hj, heq⟩
  suffices i = j by
    subst this
    apply hdisjoint i hi hj
  have hi := (Span.mem_iff.mp hi).2
  have hj := (Span.mem_iff.mp hj).2
  simp only [address] at ha hb hi hj heq
  rcases Nat.lt_or_ge 1 nArray with hn | hn
  · have hs : s.stop ≤ stride := h.stop_le_stride.resolve_left (Nat.not_le.mpr hn)
    have hs' : s'.stop ≤ stride := h'.stop_le_stride.resolve_left (Nat.not_le.mpr hn)
    calc i
      _ = (a * stride + i) % stride := by
        rw [Nat.mul_add_mod', Nat.mod_eq_of_lt (Nat.lt_of_lt_of_le hi hs)]
      _ = (b * stride + j) % stride := by rw [heq]
      _ = j := by rw [Nat.mul_add_mod', Nat.mod_eq_of_lt (Nat.lt_of_lt_of_le hj hs')]
  · -- The records of a single array are where their indices say.
    obtain rfl : a = 0 := by omega
    obtain rfl : b = 0 := by omega
    simpa using heq

end Window

namespace View

variable {v : View} {s : Span} {len : Nat}

/-- A view that shows the first `n` records starts at record `0`. -/
theorem owned_eq_iff {n : Nat} :
  v.owned = ⟨0, n⟩ ↔ v.start = 0 ∧ v.nRecord = n
  := by
  simp only [owned, Span.mk.injEq]
  omega

/-- The part of a whole view that belongs to a share is seen through a window on the share. -/
theorem window_part (hv : v.start = 0) (hs : s.start ≤ s.stop) :
  (v.part s).window = ⟨s, v.nArray, v.stride⟩
  := by
  have hstop : s.start + (s.stop - s.start) = s.stop := Nat.add_sub_cancel' hs
  simp only [window, part, owned, hv, Nat.zero_add, Span.length, hstop]

/-- A window on a share fits the slices that the whole view fits. -/
theorem fits_share (hfits : v.window.Fits len) (hv : v.start = 0) (hstop : s.stop ≤ v.nRecord) :
  Window.Fits ⟨s, v.nArray, v.stride⟩ len
  := by
  obtain ⟨h₁, h₂, h₃⟩ := hfits
  simp only [window, owned, hv, Nat.zero_add] at h₁ h₂ h₃
  constructor
  · apply h₁
  · apply h₂.imp_right hstop.trans
  · exact Nat.le_trans (Nat.add_le_add_left hstop _) h₃

end View

/-- A rank that is run on the part of a whole view that belongs to a share reduces the share. -/
theorem Rank.ends_run_part {v : View} {s : Span} {station : Station} {blockLen : Nat}
    {transfer : TransferMode} {limit : Option Nat} {world : World}
    (hstation : station.window = (v.part s).window) (hv : v.start = 0) (h₂ : 2 ≤ v.nArray)
    (hb : IsBlockLen blockLen) (hfits : v.window.Fits world.data.size)
    (hready : station.Ready blockLen transfer limit) (hle : s.start ≤ s.stop)
    (hstop : s.stop ≤ v.nRecord) :
  ∃ world',
    ReduceM.Ends (run station v.nArray transfer limit) world
      (.ok (.complete s blockLen)) world' ∧
    Reduced v.stride v.nArray (· ∈ s) world.data world'.data
  := by
  obtain ⟨window, arena, delay⟩ := station
  obtain rfl : window = ⟨s, v.nArray, v.stride⟩ := hstation.trans (View.window_part hv hle)
  apply ends_run (View.fits_share hfits hv hstop) h₂ (Nat.le_refl _) hb hready

/-! ### Ranks side by side -/

namespace RankProcess

variable {ι : Type} {share : ι → Span} {nArray stride : Nat} {data final : Data} {ds : ι → Data}

/-- Slices in which single shares have been reduced make up one in which all of them have. -/
theorem reduced_of_agreeOn (hn : 0 < nArray)
    (hreduced : ∀ i, Reduced stride nArray (· ∈ share i) data (ds i))
    (hagree : ∀ i, AgreeOn (Window.Footprint ⟨share i, nArray, stride⟩) final (ds i))
    (hrest : AgreeOn (fun k => ∀ i, ¬ Window.Footprint ⟨share i, nArray, stride⟩ k) final data) :
  Reduced stride nArray (fun k => ∃ i, k ∈ share i) data final
  where
  size_eq := hrest.size_eq
  summed := by
    rintro k ⟨i, hi⟩ hk
    have hfoot : Window.Footprint ⟨share i, nArray, stride⟩ k := by
      use 0, hn, k, hi
      rw [Window.address_zero]
    rw [(hagree i).getElem?_eq k hfoot]
    apply (hreduced i).summed k hi hk
  kept := by
    intro k hk
    by_cases hfoot : ∃ i, Window.Footprint ⟨share i, nArray, stride⟩ k
    · obtain ⟨i, hi⟩ := hfoot
      rw [(hagree i).getElem?_eq k hi]
      apply (hreduced i).kept
      intro hmem
      apply hk ⟨i, hmem⟩
    · apply hrest.getElem?_eq
      apply not_exists.mp hfoot

/-- Ranks that reduce disjoint shares of the records side by side end with the reports that they end
with alone, and all of their shares are reduced. -/
theorem inevitably_reduced [LinearOrder ι] [Finite ι] {ps : ι → RankProcess}
    {report : ι → RankReport} (hn : 0 < nArray)
    (hfits : ∀ i, Window.Fits ⟨share i, nArray, stride⟩ data.size)
    (hdisjoint : ∀ i j, i ≠ j → ∀ k ∈ share i, k ∉ share j)
    (hps : ∀ i, (ps i).Serves ⟨share i, nArray, stride⟩)
    (h : ∀ i, Inevitably Step
      (fun st => st.1.result? = some (.ok (report i)) ∧
        Reduced stride nArray (· ∈ share i) data st.2)
      (ps i, data)) :
  Inevitably Interleave
    (fun st => (∀ i, (st.1 i).result? = some (.ok (report i))) ∧
      Reduced stride nArray (fun k => ∃ i, k ∈ share i) data st.2)
    (ps, data)
  := by
  have hfoot : ∀ i j, i ≠ j → ∀ k, Window.Footprint ⟨share i, nArray, stride⟩ k →
      ¬ Window.Footprint ⟨share j, nArray, stride⟩ k := by
    intro i j hij k
    apply Window.disjoint_footprint (hfits i) (hfits j) (hdisjoint i j hij)
  apply (inevitably_interleave (fun _ => hn) hfoot hps h).mono
  rintro st ⟨ds, hends, hagree, hrest⟩
  constructor
  · intro i
    apply (hends i).1
  · apply reduced_of_agreeOn hn (fun i => (hends i).2) hagree hrest

/-- Different ranks of a partition that run side by side on a whole view, each with an action that
reduces its own share, reduce all of their shares. -/
theorem inevitably_shares [LinearOrder ι] [Finite ι] {v : View} {p : Partition} {rank : ι → Nat}
    {ps : ι → RankProcess} {m : ι → ReduceM RankReport} {world : World}
    (hv : v.owned = ⟨0, p.nRecord⟩) (hn : 0 < v.nArray) (hfits : v.window.Fits world.data.size)
    (hrank : ∀ i, rank i < p.nRank) (hinj : Function.Injective rank)
    (hserves : ∀ i, (ps i).Serves (v.part (p.owned (rank i))).window)
    (hrealizes : ∀ i, (ps i).Realizes (m i))
    (hends : ∀ i, ∃ world',
      ReduceM.Ends (m i) world (.ok (.complete (p.owned (rank i)) p.blockLen)) world' ∧
      Reduced v.stride v.nArray (· ∈ p.owned (rank i)) world.data world'.data) :
  Inevitably Interleave
    (fun st => (∀ i, (st.1 i).result? = some (.ok (.complete (p.owned (rank i)) p.blockLen))) ∧
      Reduced v.stride v.nArray (fun k => ∃ i, k ∈ p.owned (rank i)) world.data st.2)
    (ps, world.data)
  := by
  obtain ⟨hstart, hrecord⟩ := View.owned_eq_iff.mp hv
  apply inevitably_reduced hn
  · intro i
    apply View.fits_share hfits hstart
    rw [hrecord]
    apply p.owned_stop_le (hrank i)
  · intro i j hij k hi hj
    apply hij
    apply hinj
    apply p.eq_of_mem_owned (hrank i) (hrank j) hi hj
  · intro i
    have hserves := hserves i
    rw [View.window_part hstart (p.owned_start_le_stop (hrank i))] at hserves
    apply hserves
  · intro i
    obtain ⟨world', hends, hreduced⟩ := hends i
    apply ((hrealizes i).inevitably hends).mono
    rintro ⟨q, _⟩ ⟨hresult, rfl⟩
    exact ⟨hresult, hreduced⟩

end RankProcess

end ReplicaSum
