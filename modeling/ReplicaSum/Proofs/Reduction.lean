import ReplicaSum.Proofs.Shares

/-!
# Whole reductions

An executor splits a view among its ranks and runs them. Every rank reduces its own share, and the
shares tile the records, so that all records of array `0` are replaced by their sums and nothing
else changes. It doesn't matter how many ranks there are, which engine they use, what their arenas
held before, and whether they run one after another or at the same time.
-/

namespace ReplicaSum

open ReduceM (Ends)

/-- The reports of ranks that have reduced the shares of a partition, in rank order. -/
def Partition.reports (p : Partition) : List RankReport :=
  p.shares.map (RankReport.complete · p.blockLen)

@[simp]
theorem Partition.length_reports (p : Partition) :
  p.reports.length = p.nRank
  := by
  rw [reports, List.length_map, length_shares]

theorem Partition.getElem?_reports (p : Partition) {rank : Nat} (h : rank < p.nRank) :
  p.reports[rank]? = some (.complete (p.owned rank) p.blockLen)
  := by
  simp [reports, shares, List.getElem?_range h]

/-- Ranks that have reduced their shares have the reports of the partition. -/
theorem Partition.map_complete {p : Partition} {ranks : List (Span × Station)}
    (hshares : ranks.map Prod.fst = p.shares) :
  (ranks.map fun r => RankReport.complete r.1 p.blockLen) = p.reports
  := by
  rw [reports, ← hshares, List.map_map]
  rfl

/-- Begun on `world`, an action of all ranks of a partition ends with their reports, and all records
of array `0` have been replaced by their sums. -/
def ReduceM.Reduces (m : ReduceM (List RankReport)) (p : Partition) (stride nArray : Nat)
    (world : World) : Prop :=
  ∃ world', Ends m world (.ok p.reports) world' ∧
    Reduced stride nArray (· < p.nRecord) world.data world'.data

/-! ### Running the ranks -/

namespace Executor

variable {e : Executor} {v : View} {blockLen nArray : Nat} {world world' : World}

/-- If the ranks succeed when they are run in turn, they do so when each of them is run up to its
end, whatever becomes of the others. -/
theorem ends_runToEnds {stations : List Station} {reports : List RankReport}
    (h : Ends (e.runInTurn nArray stations) world (.ok reports) world') :
  Ends (e.runToEnds nArray stations) world (.ok (reports.map .ok)) world'
  := by
  induction stations generalizing reports world with
  | nil =>
    cases h
    exact Ends.pure [] _
  | cons s rest ih =>
    obtain ⟨report, world₁, hrank, h⟩ := h.of_bind
    obtain ⟨others, world₂, hrest, h⟩ := h.of_bind
    cases h
    apply hrank.attempt.bind
    apply (ih hrest).bind
    exact Ends.pure _ world'

/-- Ranks that succeed when they are run in turn succeed with either schedule. -/
theorem ends_runRanks {stations : List Station} {reports : List RankReport}
    (h : Ends (e.runInTurn nArray stations) world (.ok reports) world') :
  Ends (e.runRanks nArray stations) world (.ok reports) world'
  := by
  rw [runRanks]
  cases e.schedule with
  | serial => exact h
  | parallel => exact (ends_runToEnds h).bind (Ends.ofAttempts reports world')

/-- Ranks that are run in turn on shares that tile a stretch of records reduce the stretch. -/
theorem ends_runInTurn {ranks : List (Span × Station)} {start stop : Nat} (hv : v.start = 0)
    (h₂ : 2 ≤ v.nArray) (hb : IsBlockLen blockLen) (hfits : v.window.Fits world.data.size)
    (hwindow : ∀ r ∈ ranks, r.2.window = (v.part r.1).window)
    (hready : ∀ r ∈ ranks, r.2.Ready blockLen e.transfer e.limit)
    (htiles : Span.Tiles start stop (ranks.map Prod.fst)) (hstop : stop ≤ v.nRecord) :
  ∃ world', Ends (e.runInTurn v.nArray (ranks.map Prod.snd)) world
      (.ok (ranks.map fun r => .complete r.1 blockLen)) world' ∧
    Reduced v.stride v.nArray (fun i => start ≤ i ∧ i < stop) world.data world'.data
  := by
  induction ranks generalizing start world with
  | nil =>
    cases htiles
    use world
    constructor
    · apply Ends.pure [] world
    · apply Reduced.of_forall_not
      omega
  | cons r ranks ih =>
    obtain ⟨s, station⟩ := r
    cases htiles with
    | cons hle htail =>
      have hle : s.start ≤ s.stop := hle
      have hmid : s.stop ≤ stop := htail.le
      obtain ⟨world₁, hrank, hreduced⟩ := Rank.ends_run_part
        (hwindow _ List.mem_cons_self) hv h₂ hb hfits (hready _ List.mem_cons_self) hle
        (Nat.le_trans hmid hstop)
      have hfits₁ : v.window.Fits world₁.data.size := by
        rw [hreduced.size_eq]
        apply hfits
      obtain ⟨world', hranks, hreduced'⟩ := ih hfits₁
        (fun r hr => hwindow r (List.mem_cons_of_mem _ hr))
        (fun r hr => hready r (List.mem_cons_of_mem _ hr)) htail
      use world'
      constructor
      · rw [List.map_cons]
        exact hrank.bind (hranks.bind (Ends.pure _ _))
      · apply hreduced.cons hreduced' (by omega) hle hmid

/-- Stations with windows on the parts of a view belong to the shares in order. -/
theorem exists_ranks {p : Partition} {stations : List Station}
    (hwindows : stations.map Station.window = p.shares.map fun s => (v.part s).window) :
  ∃ ranks : List (Span × Station),
    ranks.map Prod.fst = p.shares ∧ ranks.map Prod.snd = stations ∧
    ∀ r ∈ ranks, r.2.window = (v.part r.1).window ∧ r.2 ∈ stations
  := by
  have hlength : p.shares.length = stations.length := by
    simpa using (congrArg List.length hwindows).symm
  use p.shares.zip stations, List.map_fst_zip (Nat.le_of_eq hlength),
    List.map_snd_zip (Nat.le_of_eq hlength.symm)
  intro r hr
  obtain ⟨i, hi, rfl⟩ := List.getElem_of_mem hr
  have hlt : i < p.shares.length ∧ i < stations.length := by
    simpa [List.length_zip] using hi
  have hwindow : (stations.map Station.window)[i]?
      = (p.shares.map fun s => (v.part s).window)[i]? := by
    rw [hwindows]
  constructor
  · simpa [List.getElem?_eq_getElem hlt.1, List.getElem?_eq_getElem hlt.2] using hwindow
  · apply (List.of_mem_zip hr).2

/-- The stations of the ranks of a partition that reduce a whole view in a slice of `size` records:
each has the window on its part of the view, and all that its rank needs. -/
structure Crew (e : Executor) (p : Partition) (v : View) (stations : List Station) (size : Nat) :
    Prop where
  owned_eq : v.owned = ⟨0, p.nRecord⟩
  two_le : 2 ≤ v.nArray
  isBlockLen : IsBlockLen p.blockLen
  nRank_pos : 0 < p.nRank
  fits : v.window.Fits size
  windows_eq : stations.map Station.window = p.shares.map fun s => (v.part s).window
  ready : ∀ s ∈ stations, s.Ready p.blockLen e.transfer e.limit

namespace Crew

variable {p : Partition} {stations : List Station} {size : Nat}

theorem length_eq (h : e.Crew p v stations size) :
  stations.length = p.nRank
  := by
  have hlength := congrArg List.length h.windows_eq
  simpa using hlength

theorem val_lt (h : e.Crew p v stations size) (r : Fin stations.length) :
  r.val < p.nRank
  := by
  rw [← h.length_eq]
  apply r.isLt

/-- The windows on the parts of the view belong to the ranks in order. -/
theorem window_eq (h : e.Crew p v stations size) (r : Fin stations.length) :
  (stations.get r).window = (v.part (p.owned r)).window
  := by
  have hget : (stations.map Station.window)[r.val]?
      = (p.shares.map fun s => (v.part s).window)[r.val]? := by
    rw [h.windows_eq]
  simpa [Partition.shares, List.getElem?_range (h.val_lt r)] using hget

/-- Every rank of a crew reduces its share. -/
theorem ends_run (h : e.Crew p v stations world.data.size) (r : Fin stations.length) :
  ∃ world',
    Ends (Rank.run (stations.get r) v.nArray e.transfer e.limit) world
      (.ok (.complete (p.owned r) p.blockLen)) world' ∧
    Reduced v.stride v.nArray (· ∈ p.owned r) world.data world'.data
  := by
  obtain ⟨hstart, hrecord⟩ := View.owned_eq_iff.mp h.owned_eq
  apply Rank.ends_run_part (h.window_eq r) hstart h.two_le h.isBlockLen h.fits
    (h.ready _ (List.get_mem stations r))
  · apply p.owned_start_le_stop (h.val_lt r)
  · rw [hrecord]
    apply p.owned_stop_le (h.val_lt r)

/-- The ranks of a crew reduce all records, whatever their arenas held before. -/
theorem reduces_runRanks (h : e.Crew p v stations world.data.size) :
  (e.runRanks v.nArray stations).Reduces p v.stride v.nArray world
  := by
  obtain ⟨hstart, hrecord⟩ := View.owned_eq_iff.mp h.owned_eq
  obtain ⟨ranks, hshares, hstations, hranks⟩ := exists_ranks h.windows_eq
  have htiles : Span.Tiles 0 p.nRecord (ranks.map Prod.fst) := by
    rw [hshares]
    apply p.shares_tiles h.nRank_pos
  obtain ⟨world', hends, hreduced⟩ := ends_runInTurn hstart h.two_le h.isBlockLen h.fits
    (fun r hr => (hranks r hr).1) (fun r hr => h.ready r.2 (hranks r hr).2) htiles
    (Nat.le_of_eq hrecord.symm)
  rw [hstations, Partition.map_complete hshares] at hends
  use world', ends_runRanks hends
  apply hreduced.congr
  intro i
  omega

/-- The ranks of a crew may as well take their steps in any order. They end with the reports and the
data that they end with if they are run in turn. -/
theorem inevitably_start (h : e.Crew p v stations world.data.size) :
  Inevitably RankProcess.Interleave
    (fun st =>
      (∀ r : Fin stations.length,
        (st.1 r).result? = some (.ok (.complete (p.owned r) p.blockLen))) ∧
      Reduced v.stride v.nArray (· < p.nRecord) world.data st.2)
    (fun r => .start (stations.get r) v.nArray e.transfer e.limit, world.data)
  := by
  have hn : 0 < v.nArray := Nat.lt_of_lt_of_le Nat.two_pos h.two_le
  have hserves : ∀ r : Fin stations.length, RankProcess.Serves (v.part (p.owned r)).window
      (.start (stations.get r) v.nArray e.transfer e.limit) := by
    intro r
    rw [← h.window_eq r]
    apply RankProcess.serves_start
  have hrealizes : ∀ r : Fin stations.length,
      (RankProcess.start (stations.get r) v.nArray e.transfer e.limit).Realizes
        (Rank.run (stations.get r) v.nArray e.transfer e.limit) := by
    intro r
    apply RankProcess.realizes_start _ _ (h.ready _ (List.get_mem stations r)).time
  have hinterleaved := RankProcess.inevitably_shares h.owned_eq hn h.fits h.val_lt
    Fin.val_injective hserves hrealizes h.ends_run
  apply hinterleaved.mono
  rintro st ⟨hresult, hreduced⟩
  use hresult
  apply hreduced.congr
  intro i
  rw [← p.exists_mem_owned_iff h.nRank_pos, ← h.length_eq]
  exact ⟨fun ⟨r, hr⟩ => ⟨r, r.isLt, hr⟩, fun ⟨r, hlt, hr⟩ => ⟨⟨r, hlt⟩, hr⟩⟩

end Crew

end Executor

/-! ### Entry points -/

/-- The warnings that splitting a view gives rise to: there is one if there are idle ranks. -/
def Partition.idleWarnings (p : Partition) : List Event :=
  if 0 < p.nIdle then [.idleRanks p.nIdle p] else []

/-- A view is split into the parts that belong to the shares. The data is left alone, and nothing
but the warning is logged. -/
theorem ends_splitViews (v : View) (blockLen : Nat) {nRank : Nat} (h : 0 < nRank) (world : World) :
  Ends (splitViews v blockLen nRank) world
    (.ok ((Partition.mk v.nRecord blockLen nRank).shares.map v.part))
    ⟨world.data, world.events ++ (Partition.mk v.nRecord blockLen nRank).idleWarnings⟩
  := by
  have hsplit := v.splitRanks_eq_ok blockLen h
  rw [splitViews, Partition.idleWarnings]
  split
  · exact (Ends.log _ world).bind (Ends.insist hsplit _)
  · rw [List.append_nil]
    exact Ends.insist hsplit world

namespace Context

/-- A view of a slice of `len` records that shows the arrays of a context with all of
their records. -/
structure ShownBy (c : Context) (len : Nat) (v : View) : Prop where
  of : v.Of len
  nArray_eq : v.nArray = c.nArray
  owned_eq : v.owned = ⟨0, c.nRecord⟩

/-- The view of all records of a context. -/
def wholeView (c : Context) : View := ⟨c.layout.nArray, c.layout.stride, 0, c.layout.nRecord, 1⟩

variable {c : Context} {len required : Nat} {v : View}

theorem checkRank_eq_ok_iff {rank nRank : Nat} :
  checkRank rank nRank = .ok () ↔ rank < nRank
  := by
  rw [checkRank]
  split
  · simp only [reduceCtorEq, false_iff]
    omega
  · split
    · simp only [reduceCtorEq, false_iff]
      omega
    · simp only [true_iff]
      omega

theorem isNoop_iff :
  c.isNoop = true ↔ c.nArray < 2
  := decide_eq_true_iff

theorem not_isNoop (h : 2 ≤ c.nArray) :
  ¬ c.isNoop = true
  := fun hnoop => Nat.not_lt.mpr h (isNoop_iff.mp hnoop)

theorem ofLayout_eq_ok (hn : 0 < c.nArray) (hrequired : c.layout.requiredLen = some required)
    (hlen : required ≤ len) :
  View.ofLayout c.layout len = .ok c.wholeView
  := by
  have hfits : c.layout.fits len = true := Layout.fits_iff.mpr ⟨required, hrequired, hlen⟩
  apply View.ofLayout_eq_ok_iff.mpr ⟨⟨hn, c.nArray_le⟩, c.stride_le, hfits, rfl⟩

/-- Slices of the required length have a view of all records. -/
theorem shownBy_wholeView (hn : 0 < c.nArray) (hrequired : c.layout.requiredLen = some required)
    (hlen : required ≤ len) :
  c.ShownBy len c.wholeView
  where
  of := .ofLayout (ofLayout_eq_ok hn hrequired hlen)
  nArray_eq := rfl
  owned_eq := View.owned_eq_iff.mpr ⟨rfl, rfl⟩

/-- The view that a context has in a slice is the view of its layout. -/
theorem view_eq_ok_iff_ofLayout :
  c.view len = .ok v ↔ View.ofLayout c.layout len = .ok v
  := by
  constructor
  · intro h
    rw [view] at h
    split at h
    · cases h
    · split at h
      · cases h
      · split at h
        · cases h
          exact ‹_›
        · cases h
  · intro h
    obtain ⟨-, -, hfits, -⟩ := View.ofLayout_eq_ok_iff.mp h
    obtain ⟨required, hrequired, hle⟩ := Layout.fits_iff.mp hfits
    simp only [view, hrequired, if_neg (Nat.not_lt.mpr hle), h]

/-- A context has a view of all records, and no other one, in the slices that hold its layout. -/
theorem view_eq_ok_iff (hn : 0 < c.nArray) :
  c.view len = .ok v
    ↔ v = c.wholeView ∧ ∃ required, c.layout.requiredLen = some required ∧ required ≤ len
  := by
  rw [view_eq_ok_iff_ofLayout, View.ofLayout_eq_ok_iff, Layout.fits_iff]
  constructor
  · rintro ⟨-, -, hfits, hv⟩
    exact ⟨hv, hfits⟩
  · rintro ⟨hv, hfits⟩
    exact ⟨⟨hn, c.nArray_le⟩, c.stride_le, hfits, hv⟩

/-- A context with a view has an array, and its view shows all records. -/
theorem eq_wholeView (h : c.view len = .ok v) :
  0 < c.nArray ∧ v = c.wholeView
  := by
  obtain ⟨hn, -, -, hv⟩ := View.ofLayout_eq_ok_iff.mp (view_eq_ok_iff_ofLayout.mp h)
  exact ⟨hn.1, hv⟩

/-- The views of the ranks are the parts of the view that belong to the shares. -/
theorem ends_rankViews {nRank : Nat} {world : World} (hn : 0 < nRank)
    (h : c.view world.data.size = .ok v) :
  Ends (c.rankViews nRank) world (.ok ((c.partition nRank).shares.map v.part))
    ⟨world.data, world.events ++ (c.partition nRank).idleWarnings⟩
  := by
  obtain ⟨hnArray, rfl⟩ := eq_wholeView h
  rw [rankViews]
  apply (Ends.check (checkRank_eq_ok_iff.mpr hn) world).bind
  rw [if_neg (by omega)]
  apply (Ends.get world).bind
  apply (Ends.check h world).bind
  exact ends_splitViews c.wholeView c.blockLen hn world

end Context

/-! ### Executors -/

/-- If each of several results is there, then so is their list. -/
theorem mapM_eq_ok {α β ε : Type} {f : α → Except ε β} {g : α → β} {l : List α}
    (h : ∀ a ∈ l, f a = .ok (g a)) :
  l.mapM f = .ok (l.map g)
  := by
  induction l with
  | nil => rfl
  | cons a l ih =>
    rw [List.mapM_cons, h a List.mem_cons_self, ih fun b hb => h b (List.mem_cons_of_mem a hb)]
    rfl

/-- The windows of the ranks are those on their parts of the view. -/
theorem ends_splitRanks {v : View} {world : World} (hv : v.Of world.data.size) (blockLen : Nat)
    {nRank : Nat} (h : 0 < nRank) :
  Ends (splitRanks v blockLen nRank) world
    (.ok ((Partition.mk v.nRecord blockLen nRank).shares.map fun s => (v.part s).window))
    ⟨world.data, world.events ++ (Partition.mk v.nRecord blockLen nRank).idleWarnings⟩
  := by
  apply (ends_splitViews v blockLen h world).bind
  apply Ends.ofLayout
  rw [mapM_eq_ok (g := View.window), List.map_map]
  · rfl
  · intro u hu
    obtain ⟨s, -, rfl⟩ := List.mem_map.mp hu
    exact View.openWindow_eq_ok (v := v.part s) hv.nArray_pos hv.step_eq

namespace Executor

variable {e : Executor} {host : Host} {blockLen : Nat} {windows : List Window}
  {arenas : List Arena}

/-- A machine has what the ranks of an executor need: memory for their arenas, of which there is a
single one if the ranks run one after another, and copy workers that nobody gives up on. -/
structure RunsOn (e : Executor) (host : Host) (blockLen : Nat) : Prop where
  memory : ∀ k < e.nRank, (e.schedule = .serial → k = 0) → Arena.Granted (host.grants k) blockLen
  time : ∀ k < e.nRank, e.transfer.InTime e.limit (host.delay k)

theorem runsOn_ample (e : Executor) (blockLen : Nat) :
  e.RunsOn .ample blockLen
  where
  memory k _ _ := (Host.supports_ample k blockLen e.transfer e.limit).memory
  time k _ := (Host.supports_ample k blockLen e.transfer e.limit).time

/-- Every rank has an arena that nobody has used yet. -/
theorem arenas_eq_ok (hmemory : ∀ k < e.nRank, (e.schedule = .serial → k = 0) →
      Arena.Granted (host.grants k) blockLen) :
  e.arenas host blockLen = .ok (List.replicate e.nRank (.blank blockLen))
  := by
  rw [arenas]
  cases hschedule : e.schedule with
  | serial =>
    simp only [Arena.new_eq_ok (hmemory 0 e.nRank_pos fun _ => rfl)]
    rfl
  | parallel =>
    simp only
    rw [mapM_eq_ok (g := fun _ => Arena.blank blockLen), List.map_const', List.length_range]
    intro k hk
    apply Arena.new_eq_ok (hmemory k (List.mem_range.mp hk) fun hserial => ?_)
    rw [hschedule] at hserial
    cases hserial

theorem length_stations (hlength : windows.length = arenas.length) :
  (stations host windows arenas).length = windows.length
  := by
  rw [stations, List.length_mapIdx, List.length_zip, ← hlength, Nat.min_self]

/-- If there are as many arenas as windows, then every window has a station. -/
theorem map_window_stations (hlength : windows.length = arenas.length) :
  (stations host windows arenas).map Station.window = windows
  := by
  apply List.ext_getElem
  · rw [List.length_map, length_stations hlength]
  · intro k hk hk'
    simp [stations]

/-- A station whose arena nobody has used yet has room, and the worker of one of the ranks. -/
theorem of_mem_stations {s : Station}
    (hs : s ∈ stations host windows (List.replicate e.nRank (.blank blockLen))) :
  s.arena.HasRoom blockLen ∧ ∃ k < e.nRank, s.delay = host.delay k
  := by
  obtain ⟨k, hk, rfl⟩ := List.mem_mapIdx.mp hs
  have hlt : k < e.nRank := by
    rw [List.length_zip, List.length_replicate] at hk
    omega
  constructor
  · simp only [List.getElem_zip, List.getElem_replicate]
    exact Arena.hasRoom_blank blockLen
  · exact ⟨k, hlt, rfl⟩

/-- Given a view that shows what the context describes, an executor gets arenas for its ranks,
splits the view among them and runs them. -/
theorem driveReduce_eq (e : Executor) (host : Host) {v : View} {c : Context} (h₂ : 2 ≤ c.nArray)
    (hnArray : v.nArray = c.nArray) (howned : v.owned = ⟨0, c.nRecord⟩) :
  e.driveReduce host v c = (do
    ReduceM.log (e.startEvent c)
    let arenas ← ReduceM.check (e.arenas host c.blockLen)
    let windows ← splitRanks v c.blockLen e.nRank
    e.runRanks c.nArray (stations host windows arenas))
  := by
  have hmatch : ¬ (v.nArray ≠ c.nArray ∨ v.owned ≠ ⟨0, c.nRecord⟩) :=
    not_or.mpr ⟨not_not.mpr hnArray, not_not.mpr howned⟩
  rw [driveReduce, if_neg (Context.not_isNoop h₂), if_neg hmatch]

/-- Given memory for the arenas, an executor ends as its ranks do at their stations. -/
theorem exists_stations (e : Executor) {v : View} {c : Context} {world : World}
    (h₂ : 2 ≤ c.nArray) (hv : c.ShownBy world.data.size v)
    (hmemory : ∀ k < e.nRank, (e.schedule = .serial → k = 0) →
      Arena.Granted (host.grants k) c.blockLen) :
  ∃ stations world₁, world₁.data = world.data ∧
    stations.map Station.window
      = (c.partition e.nRank).shares.map (fun s => (v.part s).window) ∧
    (∀ s ∈ stations, s.arena.HasRoom c.blockLen ∧ ∃ k < e.nRank, s.delay = host.delay k) ∧
    ∀ outcome world', Ends (e.runRanks c.nArray stations) world₁ outcome world' →
      Ends (e.driveReduce host v c) world outcome world'
  := by
  have hrecord : v.nRecord = c.nRecord := (View.owned_eq_iff.mp hv.owned_eq).2
  let p := c.partition e.nRank
  let windows := p.shares.map fun s => (v.part s).window
  let started : World := ⟨world.data, world.events ++ [e.startEvent c]⟩
  have hof : v.Of started.data.size := hv.of
  have hsplit := ends_splitRanks hof c.blockLen e.nRank_pos
  rw [hrecord] at hsplit
  use stations host windows (List.replicate e.nRank (.blank c.blockLen)),
    ⟨started.data, started.events ++ p.idleWarnings⟩, rfl
  constructor
  · apply map_window_stations
    rw [List.length_map, Partition.length_shares, List.length_replicate]
    rfl
  constructor
  · intro s hs
    apply of_mem_stations hs
  · intro outcome world' hends
    rw [e.driveReduce_eq host h₂ hv.nArray_eq hv.owned_eq]
    exact (Ends.log _ world).bind ((Ends.check (arenas_eq_ok hmemory) _).bind (hsplit.bind hends))

/-- Stations with windows on the shares of a view that shows what the context describes make up a
crew, if they are ready. -/
theorem crew_of_shownBy {c : Context} {v : View} {size : Nat} {stations : List Station}
    (h₂ : 2 ≤ c.nArray) (hv : c.ShownBy size v)
    (hwindows : stations.map Station.window
      = (c.partition e.nRank).shares.map fun s => (v.part s).window)
    (hready : ∀ s ∈ stations, s.Ready c.blockLen e.transfer e.limit) :
  e.Crew (c.partition e.nRank) v stations size
  where
  owned_eq := hv.owned_eq
  two_le := hv.nArray_eq ▸ h₂
  isBlockLen := c.isBlockLen
  nRank_pos := e.nRank_pos
  fits := hv.of.fits
  windows_eq := hwindows
  ready := hready

/-- An executor reduces the arrays of any view that shows what the context describes. -/
theorem reduces_driveReduce {v : View} {c : Context} {world : World} (h₂ : 2 ≤ c.nArray)
    (hv : c.ShownBy world.data.size v) (hhost : e.RunsOn host c.blockLen) :
  (e.driveReduce host v c).Reduces (c.partition e.nRank) v.stride c.nArray world
  := by
  obtain ⟨stations, world₁, hdata, hwindows, hstations, hdrive⟩ :=
    e.exists_stations h₂ hv hhost.memory
  have hready : ∀ s ∈ stations, s.Ready c.blockLen e.transfer e.limit := by
    intro s hs
    obtain ⟨hroom, k, hk, hdelay⟩ := hstations s hs
    use hroom
    rw [hdelay]
    apply hhost.time k hk
  rw [← hdata] at hv
  have hcrew := crew_of_shownBy h₂ hv hwindows hready
  obtain ⟨world', hends, hreduced⟩ := hcrew.reduces_runRanks
  rw [hv.nArray_eq] at hends hreduced
  rw [hdata] at hreduced
  exact ⟨world', hdrive _ _ hends, hreduced⟩

/-- A configuration describes an executor if it has ranks and there are threads for them. -/
theorem ofConfig_eq_ok {schedule : Schedule} {config : Config}
    (hrank : 0 < config.nRank host.poolSize)
    (hpool : schedule = .parallel → host.poolFault (config.nRank host.poolSize) = none) :
  ofConfig schedule host config
    = .ok ⟨schedule, config.nRank host.poolSize, config.transfer, config.waitTimeoutMs, hrank⟩
  := by
  have hprepare : prepare schedule host (config.nRank host.poolSize) = .ok () := by
    cases schedule with
    | serial => rfl
    | parallel =>
      rw [prepare, Host.pool, hpool rfl]
  simp only [ofConfig, dif_pos hrank, new, hprepare]
  rfl

end Executor

/-! ### Whole slices -/

/-- A machine has what a reduction with a given configuration needs: threads for its ranks if it has
more than one, memory for their arenas, and copy workers that nobody gives up on. -/
structure Host.Carries (host : Host) (config : Config) (blockLen : Nat) : Prop where
  pool : 1 < config.nRank host.poolSize → host.poolFault (config.nRank host.poolSize) = none
  ranks : ∀ k < config.nRank host.poolSize,
    host.Supports k blockLen config.transfer config.waitTimeoutMs

theorem Host.carries_ample (config : Config) (blockLen : Nat) :
  Host.ample.Carries config blockLen
  where
  pool _ := rfl
  ranks k _ := supports_ample k blockLen config.transfer config.waitTimeoutMs

/-- If there are threads for more than one rank, then there are for ranks that are run in
parallel. -/
theorem Host.poolFault_of_parallel {host : Host} {nRank : Nat}
    (hpool : 1 < nRank → host.poolFault nRank = none)
    (hparallel : (if nRank = 1 then Schedule.serial else .parallel) = .parallel)
    (hrank : 0 < nRank) :
  host.poolFault nRank = none
  := by
  apply hpool
  by_contra hone
  rw [if_pos (by omega)] at hparallel
  cases hparallel

namespace Host.Carries

variable {host : Host} {config : Config} {blockLen : Nat}

/-- The machine has what the ranks of the executor need that the configuration describes. -/
theorem runsOn (h : host.Carries config blockLen) {schedule : Schedule}
    (hrank : 0 < config.nRank host.poolSize) :
  Executor.RunsOn
    ⟨schedule, config.nRank host.poolSize, config.transfer, config.waitTimeoutMs, hrank⟩
    host blockLen
  where
  memory k hk _ := (h.ranks k hk).memory
  time k hk := (h.ranks k hk).time

end Host.Carries

/-- On a slice of the required length, a reduction ends as that executor does on the whole view. -/
theorem ends_reduceAccumulators {host : Host} {c : Context} {config : Config} {required : Nat}
    {world world' : World} {outcome : Except (Failure ReduceError) (List RankReport)}
    (h₂ : 2 ≤ c.nArray) (hrequired : c.layout.requiredLen = some required)
    (hlen : required ≤ world.data.size) (hrank : 0 < config.nRank host.poolSize)
    (hpool : 1 < config.nRank host.poolSize → host.poolFault (config.nRank host.poolSize) = none)
    (h : Ends (Executor.driveReduce
      ⟨if config.nRank host.poolSize = 1 then .serial else .parallel, config.nRank host.poolSize,
        config.transfer, config.waitTimeoutMs, hrank⟩ host c.wholeView c) world outcome world') :
  Ends (reduceAccumulators host c config) world outcome world'
  := by
  have hn : 0 < c.nArray := Nat.lt_of_lt_of_le Nat.two_pos h₂
  have hview := (Context.view_eq_ok_iff hn).mpr ⟨rfl, required, hrequired, hlen⟩
  have hexecutor := Executor.ofConfig_eq_ok hrank fun hparallel =>
    host.poolFault_of_parallel hpool hparallel hrank
  rw [reduceAccumulators, if_neg (Context.not_isNoop h₂)]
  exact (Ends.get world).bind ((Ends.check hview world).bind ((Ends.check hexecutor world).bind h))

/-- The arrays of a context are reduced in every slice of the required length. -/
theorem reduces_reduceAccumulators {host : Host} {c : Context} {config : Config} {required : Nat}
    {world : World} (h₂ : 2 ≤ c.nArray) (hrequired : c.layout.requiredLen = some required)
    (hlen : required ≤ world.data.size) (hrank : 0 < config.nRank host.poolSize)
    (hhost : host.Carries config c.blockLen) :
  (reduceAccumulators host c config).Reduces (c.partition (config.nRank host.poolSize))
    c.layout.stride c.nArray world
  := by
  have hn : 0 < c.nArray := Nat.lt_of_lt_of_le Nat.two_pos h₂
  obtain ⟨world', hends, hreduced⟩ := Executor.reduces_driveReduce h₂
    (Context.shownBy_wholeView hn hrequired hlen) (hhost.runsOn hrank)
  exact ⟨world', ends_reduceAccumulators h₂ hrequired hlen hrank hhost.pool hends, hreduced⟩

end ReplicaSum
