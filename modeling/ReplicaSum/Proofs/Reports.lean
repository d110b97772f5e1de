import ReplicaSum.Proofs.Reduction

/-!
# What the ranks report

A rank may fail: its transfers may be refused, a wait may last too long, and there may be no memory
for its arena. But a rank that reports anything reports its whole share, whatever the engine did
that answered its calls. So a reduction that ends well has the reports of its partition, on any
machine. -/

namespace ReplicaSum

open ReduceM (Ends)

/-! ### The reducer -/

namespace RankM

variable {α β : Type} {m : RankM α} {f : α → RankM β} {P : β → Prop} {Q : α → Prop}

/-- Whatever engine answers its calls, a program ends well only with results that satisfy `Q`. -/
def Returns (Q : α → Prop) (m : RankM α) : Prop :=
  ∀ (σ : Type) [TransferEngine σ] (engine : σ) (data : Data) (a : α),
    (Session.run m.run engine data).1 = .ok a → Q a

theorem returns_true (m : RankM α) :
  m.Returns fun _ => True
  := fun _ _ _ _ _ _ => trivial

theorem returns_pure {a : α} (h : Q a) :
  (pure a : RankM α).Returns Q
  := by
  intro σ _ engine data b hb
  cases hb
  exact h

theorem returns_throw (failure : Failure RankError) :
  (throw failure : RankM α).Returns Q
  := by
  intro σ _ engine data a ha
  cases ha

theorem Returns.bind (h : m.Returns Q) (h' : ∀ a, Q a → (f a).Returns P) :
  (m >>= f).Returns P
  := by
  intro σ _ engine data b hb
  rw [ExceptT.run_bind, Session.run_bind] at hb
  rcases hm : Session.run m.run engine data with ⟨outcome, engine₁, data₁⟩
  rw [hm] at hb
  cases outcome with
  | ok a => exact h' a (h σ engine data a (congrArg Prod.fst hm)) σ engine₁ data₁ b hb
  | error failure => cases hb

end RankM

namespace Reducer

/-- If the loop ends well, it has gone through all of its blocks. -/
theorem returns_reduceBlocks (arrays : List (Fin maxArray)) (out : Tag) {start stop : Nat}
    {blocks : List Span} (htiles : Span.Tiles start stop blocks) (sum : BlockSum) (slots : Slots)
    (report : RankReport) :
  (reduceBlocks arrays out blocks sum slots report).Returns
    (· = ⟨report.range, report.nBlock + blocks.length, report.nRecord + (stop - start)⟩)
  := by
  induction htiles generalizing sum slots report with
  | nil start =>
    apply RankM.returns_pure
    rw [List.length_nil, Nat.sub_self]
    rfl
  | cons hle htail ih =>
    rw [← addBlock_add hle htail.le]
    refine (RankM.returns_true _).bind ?_
    rintro ⟨sum, slots⟩ -
    refine (RankM.returns_true _).bind ?_
    intro slots _
    apply ih

/-- If the reducer ends well, it reports the whole range. -/
theorem returns_reduceRank (range : Span) (nArray : Nat) (scratch : Scratch) :
  (reduceRank range nArray scratch).Returns (· = .complete range scratch.blockLen)
  := by
  rw [reduceRank]
  split
  · rw [← RankReport.mk_blocks_eq_complete range scratch.isBlockLen.1]
    have htiles : Span.Tiles range.start (max range.start range.stop)
        (range.blocks scratch.blockLen scratch.isBlockLen.1).toList := Span.blocks_tiles
    generalize (range.blocks scratch.blockLen scratch.isBlockLen.1).toList = blocks at htiles
    cases blocks with
    | nil => apply returns_reduceBlocks [] (.input 0) htiles scratch.sum (.carve scratch nArray)
    | cons first rest =>
      refine (RankM.returns_true _).bind ?_
      intro slots _
      apply returns_reduceBlocks _ _ htiles
  · apply RankM.returns_throw

end Reducer

theorem Rank.returns_session (range : Span) (nArray : Nat) (scratch : Scratch) :
  (Rank.session range nArray scratch).Returns (· = .complete range scratch.blockLen)
  := by
  refine (Reducer.returns_reduceRank range nArray scratch).bind ?_
  rintro _ rfl
  refine (RankM.returns_true _).bind ?_
  intro _ _
  apply RankM.returns_pure
  rfl

/-! ### Ranks -/

theorem Scratch.blockLen_of_ofBuffers {staged out : Array Record} {sum : BlockSum} {blockLen : Nat}
    {scratch : Scratch} (h : ofBuffers staged sum out blockLen = .ok scratch) :
  scratch.blockLen = blockLen
  := by
  rw [ofBuffers] at h
  split_ifs at h
  cases h
  rfl

/-- The scratch memory of an arena is for blocks of the length that the arena is for. -/
theorem Arena.blockLen_of_scratch {arena : Arena} {scratch : Scratch}
    (h : arena.scratch = .ok scratch) :
  scratch.blockLen = arena.blockLen
  := by
  rw [Arena.scratch] at h
  cases hbuffers : Scratch.ofBuffers arena.staged arena.sum arena.out arena.blockLen with
  | error cause =>
    rw [hbuffers] at h
    cases h
  | ok s =>
    rw [hbuffers] at h
    cases h
    apply Scratch.blockLen_of_ofBuffers hbuffers

theorem Arena.blockLen_of_new {grants : ScratchPart → Nat → Bool} {arena : Arena} {blockLen : Nat}
    (h : Arena.new grants blockLen = .ok arena) :
  arena.blockLen = blockLen
  := by
  obtain ⟨staged, -, h⟩ := of_bind_eq_ok h
  obtain ⟨sum, -, h⟩ := of_bind_eq_ok h
  obtain ⟨out, -, h⟩ := of_bind_eq_ok h
  cases h
  rfl

/-- A rank that reports anything reports all records of its window. -/
theorem Rank.report_of_ends_run {s : Station} {nArray : Nat} {transfer : TransferMode}
    {limit : Option Nat} {world world' : World} {report : RankReport} (hb : 0 < s.arena.blockLen)
    (h : Ends (run s nArray transfer limit) world (.ok report) world') :
  report = .complete s.window.owned s.arena.blockLen
  := by
  rw [run] at h
  split at h
  · rename_i hempty
    obtain ⟨_, _, -, h⟩ := h.of_bind
    cases h
    rw [RankReport.complete_of_isEmpty hb hempty]
  · obtain ⟨_, _, -, h⟩ := h.of_bind
    obtain ⟨scratch, _, hscratch, h⟩ := h.of_bind
    have hlen := Arena.blockLen_of_scratch hscratch.of_check.1
    rw [← hlen]
    cases transfer with
    | immediate =>
      obtain ⟨world₁, _, -, h⟩ := h.of_bind
      obtain ⟨_, _, -, h⟩ := h.of_bind
      exact returns_session _ _ _ _ _ _ report h.of_ofRank
    | threaded =>
      obtain ⟨world₁, _, -, h⟩ := h.of_bind
      obtain ⟨_, _, -, h⟩ := h.of_bind
      exact returns_session _ _ _ _ _ _ report h.of_ofRank

/-! ### Executors -/

/-- If each of several results that are there has a property, then it holds of their list. -/
theorem of_mapM_eq_ok {α β ε : Type} {f : α → Except ε β} {P : β → Prop}
    (hf : ∀ a b, f a = .ok b → P b) {l : List α} {bs : List β} (h : l.mapM f = .ok bs) :
  bs.length = l.length ∧ ∀ b ∈ bs, P b
  := by
  induction l generalizing bs with
  | nil =>
    cases h
    exact ⟨rfl, by simp⟩
  | cons a l ih =>
    rw [List.mapM_cons] at h
    obtain ⟨b, ha, h⟩ := of_bind_eq_ok h
    obtain ⟨rest, hl, h⟩ := of_bind_eq_ok h
    cases h
    obtain ⟨hlength, hrest⟩ := ih hl
    use congrArg (· + 1) hlength
    intro c hc
    rcases List.mem_cons.mp hc with rfl | hc
    · apply hf a c ha
    · apply hrest c hc

namespace Executor

variable {e : Executor} {host : Host} {nArray blockLen : Nat} {world world' : World}
variable {stations : List Station} {reports : List RankReport}

/-- If the ranks succeed when each of them is run up to its end, they do so when they are run in
turn. -/
theorem ends_runInTurn_of_runToEnds
    (h : Ends (e.runToEnds nArray stations) world (.ok (reports.map .ok)) world') :
  Ends (e.runInTurn nArray stations) world (.ok reports) world'
  := by
  induction stations generalizing reports world with
  | nil =>
    cases reports with
    | nil =>
      cases h
      rfl
    | cons report reports => cases h
  | cons s rest ih =>
    obtain ⟨outcome, world₁, hrank, h⟩ := h.of_bind
    obtain ⟨outcomes, world₂, hrest, h⟩ := h.of_bind
    cases reports with
    | nil => cases h
    | cons report reports =>
      cases h
      exact hrank.of_attempt.bind ((ih hrest).bind (Ends.pure _ _))

/-- With either schedule, the ranks succeed just if they do so in turn. -/
theorem ends_runRanks_iff :
  Ends (e.runRanks nArray stations) world (.ok reports) world'
    ↔ Ends (e.runInTurn nArray stations) world (.ok reports) world'
  := by
  constructor
  · intro h
    rw [runRanks] at h
    split at h
    · exact h
    · obtain ⟨outcomes, world₁, hranks, h⟩ := h.of_bind
      obtain rfl := h.of_ofAttempts
      obtain ⟨-, rfl⟩ := h.unique (Ends.ofAttempts reports world₁)
      exact ends_runInTurn_of_runToEnds hranks
  · apply ends_runRanks

/-- Ranks that are run in turn and all succeed report all records of their windows. -/
theorem reports_of_ends_runInTurn (hb : 0 < blockLen)
    (hstations : ∀ s ∈ stations, s.arena.blockLen = blockLen)
    (h : Ends (e.runInTurn nArray stations) world (.ok reports) world') :
  reports = stations.map fun s => .complete s.window.owned blockLen
  := by
  induction stations generalizing reports world with
  | nil =>
    cases h
    rfl
  | cons s rest ih =>
    have hlen := hstations s List.mem_cons_self
    obtain ⟨report, world₁, hrank, h⟩ := h.of_bind
    obtain ⟨others, world₂, hrest, h⟩ := h.of_bind
    cases h
    rw [List.map_cons, ← ih (fun t ht => hstations t (List.mem_cons_of_mem s ht)) hrest, ← hlen,
      ← Rank.report_of_ends_run (hlen.symm ▸ hb) hrank]

/-- If there are arenas, then there is one for every rank. -/
theorem arenas_spec {arenas : List Arena} (h : e.arenas host blockLen = .ok arenas) :
  arenas.length = e.nRank ∧ ∀ arena ∈ arenas, arena.blockLen = blockLen
  := by
  rw [Executor.arenas] at h
  split at h
  · obtain ⟨arena, hnew, h⟩ := of_bind_eq_ok h
    cases h
    use List.length_replicate
    intro other hother
    rw [List.eq_of_mem_replicate hother]
    apply Arena.blockLen_of_new hnew
  · obtain ⟨hlength, harenas⟩ := of_mapM_eq_ok (fun _ _ => Arena.blockLen_of_new) h
    use hlength.trans List.length_range, harenas

theorem arena_mem_of_mem_stations {windows : List Window} {arenas : List Arena} {s : Station}
    (hs : s ∈ Executor.stations host windows arenas) :
  s.arena ∈ arenas
  := by
  obtain ⟨k, hk, rfl⟩ := List.mem_mapIdx.mp hs
  apply (List.of_mem_zip (List.getElem_mem hk)).2

/-- An executor that ends well reports the shares of all ranks. -/
theorem reports_of_ends_driveReduce {v : View} {c : Context} (h₂ : 2 ≤ c.nArray)
    (hv : c.ShownBy world.data.size v)
    (h : Ends (e.driveReduce host v c) world (.ok reports) world') :
  reports = (c.partition e.nRank).reports
  := by
  obtain ⟨hstart, hrecord⟩ := View.owned_eq_iff.mp hv.owned_eq
  rw [e.driveReduce_eq host h₂ hv.nArray_eq hv.owned_eq] at h
  obtain ⟨_, started, hlog, h⟩ := h.of_bind
  obtain ⟨-, rfl⟩ := hlog.unique (Ends.log _ world)
  obtain ⟨arenas, _, hchecked, h⟩ := h.of_bind
  obtain ⟨harenas, rfl⟩ := hchecked.of_check
  obtain ⟨hlength, hblockLen⟩ := arenas_spec harenas
  obtain ⟨windows, world₁, hsplit, h⟩ := h.of_bind
  have hof : v.Of (World.mk world.data (world.events ++ [e.startEvent c])).data.size := hv.of
  obtain ⟨hwindows, -⟩ := hsplit.unique (ends_splitRanks hof c.blockLen e.nRank_pos)
  rw [hrecord] at hwindows
  have hsize : windows.length = arenas.length := by
    rw [Except.ok.inj hwindows, List.length_map, Partition.length_shares, hlength]
  have hreports := reports_of_ends_runInTurn c.isBlockLen.1
    (fun s hs => hblockLen s.arena (arena_mem_of_mem_stations hs)) (ends_runRanks_iff.mp h)
  have howned : ∀ s ∈ (c.partition e.nRank).shares, (v.part s).window.owned = s := by
    intro s hs
    obtain ⟨r, hr, rfl⟩ := List.mem_map.mp hs
    rw [View.window_part hstart ((c.partition e.nRank).owned_start_le_stop (List.mem_range.mp hr))]
  calc
    reports = ((Executor.stations host windows arenas).map Station.window).map fun w =>
        .complete w.owned c.blockLen := by rw [hreports, List.map_map]; rfl
    _ = (c.partition e.nRank).shares.map fun s => .complete (v.part s).window.owned c.blockLen := by
      rw [map_window_stations hsize, Except.ok.inj hwindows, List.map_map]
      rfl
    _ = (c.partition e.nRank).reports := by
      apply List.map_congr_left
      intro s hs
      rw [howned s hs]
      rfl

theorem nRank_of_ofConfig {schedule : Schedule} {config : Config}
    (h : ofConfig schedule host config = .ok e) :
  e.nRank = config.nRank host.poolSize
  := by
  rw [ofConfig] at h
  split at h
  · obtain ⟨e₁, hnew, h⟩ := of_bind_eq_ok h
    obtain ⟨_, -, hnew⟩ := of_bind_eq_ok hnew
    cases hnew
    cases h
    rfl
  · cases h

end Executor

/-! ### Entry points -/

variable {host : Host} {c : Context} {config : Config} {world world' : World}

/-- A reduction of a whole slice that ends well reports the shares of all ranks. -/
theorem reports_of_ends_reduceAccumulators (h₂ : 2 ≤ c.nArray) {reports : List RankReport}
    (h : Ends (reduceAccumulators host c config) world (.ok reports) world') :
  reports = (c.partition (config.nRank host.poolSize)).reports
  := by
  rw [reduceAccumulators, if_neg (Context.not_isNoop h₂)] at h
  obtain ⟨_, _, hget, hafter⟩ := h.of_bind
  cases hget
  obtain ⟨v, _, hviewed, hrest⟩ := hafter.of_bind
  obtain ⟨hview, rfl⟩ := hviewed.of_check
  obtain ⟨e, _, hbuilt, hdrive⟩ := hrest.of_bind
  obtain ⟨hexecutor, rfl⟩ := hbuilt.of_check
  obtain ⟨hn, -⟩ := Context.eq_wholeView hview
  obtain ⟨rfl, required, hrequired, hle⟩ := (Context.view_eq_ok_iff hn).mp hview
  rw [← Executor.nRank_of_ofConfig hexecutor]
  apply e.reports_of_ends_driveReduce h₂ (Context.shownBy_wholeView hn hrequired hle) hdrive

/-- A rank that is run on its own and ends well has the report of its share. -/
theorem report_of_ends_reducePipeline (h₂ : 2 ≤ c.nArray) {v : View} {rank nRank : Nat}
    {report : RankReport}
    (h : Ends (reducePipeline host v c rank nRank config) world (.ok report) world') :
  (c.partition nRank).reports[rank]? = some report
  := by
  obtain ⟨_, _, hchecked, hafter⟩ := h.of_bind
  obtain ⟨hrank, rfl⟩ := hchecked.of_check
  obtain ⟨share, _, hinsisted, hrest⟩ := hafter.of_bind
  obtain ⟨hshare, rfl⟩ := hinsisted.of_insist
  have hlt : rank < (c.partition nRank).nRank := Context.checkRank_eq_ok_iff.mp hrank
  have howned := Partition.owned?_eq_ok c.isBlockLen.1 hlt
  obtain rfl := Except.ok.inj (howned.symm.trans hshare)
  split at hrest
  · cases hrest
  · rename_i hmatch
    rw [if_neg (Context.not_isNoop h₂)] at hrest
    obtain ⟨w, _, hwindow, hrest⟩ := hrest.of_bind
    obtain ⟨arena, _, harena, hrun⟩ := hrest.of_bind
    obtain rfl := View.eq_window_of_openWindow hwindow.of_ofLayout.1
    have hlen := Arena.blockLen_of_new harena.of_check.1
    rw [Partition.getElem?_reports _ hlt, ← not_not.mp (not_or.mp hmatch).2,
      Rank.report_of_ends_run (hlen.symm ▸ c.isBlockLen.1) hrun, hlen]
    rfl

end ReplicaSum
