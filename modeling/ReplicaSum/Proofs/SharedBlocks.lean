import ReplicaSum.Proofs.Balance
import ReplicaSum.Proofs.Discipline
import ReplicaSum.Proofs.Reports
import ReplicaSum.Proofs.Walks

/-!
# The blocks of the ranks

Records are shared out in whole blocks, so the ranks go through the very blocks that a single rank
would go through. Whenever a reduction ends well, each rank reports the blocks of its share. How
many blocks that are altogether does not depend on how many ranks there are, and no more than one
block is short. -/

namespace ReplicaSum

open ReduceM (Ends)

namespace Span

variable {a b c blockLen : Nat}

/-- The blocks of a span are those of its front and those of its back, if the front consists of
whole blocks. -/
theorem blocks_append (h : 0 < blockLen) (hab : a ≤ b) (hbc : b ≤ c) (hdvd : blockLen ∣ b - a) :
  ((Span.mk a c).blocks blockLen h).toList
    = ((Span.mk a b).blocks blockLen h).toList ++ ((Span.mk b c).blocks blockLen h).toList
  := by
  obtain ⟨k, hk⟩ := hdvd
  induction k generalizing a with
  | zero =>
    obtain rfl : a = b := by omega
    have hnone : ((Span.mk a a).blocks blockLen h).next? = none := if_neg (Nat.lt_irrefl a)
    rw [Blocks.toList_eq_nil hnone, List.nil_append]
  | succ k ih =>
    rw [Nat.mul_succ] at hk
    -- The first block ends before the front does, so it is the same in both spans.
    have hfirst : ∀ stop, a + blockLen ≤ stop →
        ((Span.mk a stop).blocks blockLen h).toList
          = ⟨a, a + blockLen⟩ :: ((Span.mk (a + blockLen) stop).blocks blockLen h).toList := by
      intro stop hstop
      apply Blocks.toList_eq_cons
      simp only [Blocks.next?, blocks, Nat.min_eq_right hstop]
      apply if_pos
      omega
    rw [hfirst c (by omega), hfirst b (by omega), ih (by omega) (by omega), List.cons_append]

theorem blocks_self (h : 0 < blockLen) (a : Nat) :
  ((Span.mk a a).blocks blockLen h).toList = []
  := Blocks.toList_eq_nil (if_neg (Nat.lt_irrefl a))

/-- The blocks of spans that tile a span are those of the span, if the spans start at whole
blocks. -/
theorem Tiles.flatMap_blocks {start stop : Nat} {spans : List Span} (h : 0 < blockLen)
    (htiles : Tiles start stop spans) (hdvd : ∀ s ∈ spans, blockLen ∣ s.start) :
  spans.flatMap (fun s => (s.blocks blockLen h).toList)
    = ((Span.mk start stop).blocks blockLen h).toList
  := by
  induction htiles with
  | nil start => rw [blocks_self, List.flatMap_nil]
  | @cons s stop rest hle tail ih =>
    have hrest := ih fun t ht => hdvd t (List.mem_cons_of_mem s ht)
    rw [List.flatMap_cons]
    cases rest with
    | nil =>
      have hend : s.stop = stop := by
        generalize s.stop = mid at tail
        cases tail
        rfl
      rw [List.flatMap_nil, List.append_nil, ← hend]
    | cons t rest =>
      have hstart : blockLen ∣ s.start := hdvd s List.mem_cons_self
      have hstop : blockLen ∣ s.stop := by
        rw [← tail.start_eq]
        apply hdvd t (List.mem_cons_of_mem s List.mem_cons_self)
      rw [hrest, blocks_append h hle tail.le (Nat.dvd_sub hstop hstart)]

/-- At most one block is short. -/
theorem countP_short_le_one (h : 0 < blockLen) (s : Span) :
  (s.blocks blockLen h).toList.countP (fun t => t.length < blockLen) ≤ 1
  := by
  have hgrid : (s.blocks blockLen h).toList = s.grid blockLen := Blocks.toList_eq_grid _
  have hfull : (s.grid blockLen).dropLast.countP (fun t => t.length < blockLen) = 0 := by
    apply List.countP_eq_zero.mpr
    intro t ht
    rw [length_of_mem_dropLast_grid h ht]
    simp
  rw [hgrid]
  rcases List.eq_nil_or_concat (s.grid blockLen) with hnil | ⟨front, last, hconcat⟩
  · rw [hnil]
    apply Nat.zero_le 1
  · rw [hconcat] at hfull ⊢
    rw [List.concat_eq_append, List.dropLast_concat] at hfull
    rw [List.concat_eq_append, List.countP_append, hfull, Nat.zero_add]
    apply List.countP_le_length

end Span

namespace Partition

variable (p : Partition)

/-- The blocks that a rank goes through. -/
def blocks? (rank : Nat) : Except Violation (List Span) := do
  let share ← p.owned? rank
  let walk ← share.blocks? p.blockLen
  return walk.toList

theorem blocks?_eq_ok (hb : 0 < p.blockLen) {rank : Nat} (hr : rank < p.nRank) :
  p.blocks? rank = .ok ((p.owned rank).blocks p.blockLen hb).toList
  := by
  have hshare : p.owned? rank = .ok (p.owned rank) := owned?_eq_ok hb hr
  have hwalk : (p.owned rank).blocks? p.blockLen = .ok ((p.owned rank).blocks p.blockLen hb) :=
    dif_pos hb
  simp only [blocks?, hshare, hwalk, bind, Except.bind, pure, Except.pure]

/-- The blocks of the shares are those of all records. -/
theorem flatMap_blocks_shares (hb : 0 < p.blockLen) (hn : 0 < p.nRank) :
  p.shares.flatMap (fun s => (s.blocks p.blockLen hb).toList)
    = ((Span.mk 0 p.nRecord).blocks p.blockLen hb).toList
  := by
  apply (p.shares_tiles hn).flatMap_blocks hb
  intro s hs
  obtain ⟨r, -, rfl⟩ := List.mem_map.mp hs
  apply p.dvd_owned_start r

/-- Every rank reports its share, with the number of its blocks and that of its records. -/
theorem reports_eq_map (hb : 0 < p.blockLen) :
  p.reports = (List.range p.nRank).map fun r =>
    ⟨p.owned r, ((p.owned r).blocks p.blockLen hb).toList.length, (p.owned r).length⟩
  := by
  rw [reports, shares, List.map_map]
  apply List.map_congr_left
  intro r _
  rw [Span.length_blocks]
  rfl

/-- The ranks report as many blocks as the records make up. -/
theorem sum_nBlock_reports (hb : 0 < p.blockLen) (hn : 0 < p.nRank) :
  (p.reports.map RankReport.nBlock).sum = p.nRecord ⌈/⌉ p.blockLen
  := by
  have hceil : ((Span.mk 0 p.nRecord).blocks p.blockLen hb).toList.length
      = p.nRecord ⌈/⌉ p.blockLen := by
    rw [Span.length_blocks, Nat.ceilDiv_eq_add_pred_div, Nat.add_sub_assoc hb]
    rfl
  rw [← hceil, ← p.flatMap_blocks_shares hb hn, List.length_flatMap, p.reports_eq_map hb, shares,
    List.map_map, List.map_map]
  rfl

end Partition

/-- The blocks that a rank stores are those of its range. -/
theorem filterMap_stored_reduceRank {σ : Type} [TransferEngine σ]
    {Parks : σ → Data → TagSlots Buffer → Prop} {engine : σ} {data : Data} {w : Window}
    (ho : Obliging σ (fun t => t.check w = .ok ()) Parks) (hp : Parks engine data .empty)
    {range : Span} (hrange : ∀ i ∈ range, i ∈ w.owned) {nArray : Nat} (h₂ : 2 ≤ nArray)
    (hn : nArray ≤ w.nArray) (hmax : nArray ≤ maxArray) (scratch : Scratch) :
  (Session.outlines (reduceRank range nArray scratch).run engine data).filterMap
      Call.Outline.stored
    = (range.blocks scratch.blockLen scratch.isBlockLen.1).toList
  := by
  obtain ⟨engine', data', hmakes⟩ := makes_reduceRank ho range h₂ hmax scratch hp
    (fun tag _ => TagSlots.get?_empty tag) (Reducer.check_transfers scratch hrange hn)
  rw [hmakes.outlines_eq]
  apply Reducer.filterMap_stored_calls

/-- Sharing records out never cuts a block: one after the other, the ranks go through the blocks of
all records, of which at most one is short, and each of them stores the blocks that it goes through.
A reduction that ends well, on any machine, has one report for each rank in rank order, which counts
the blocks and the records of its share; and on a machine that has what the ranks need, it ends
well. So it reports the same number of blocks whatever the number of ranks. -/
theorem Partition.blocks_uncut (p : Partition) (hb : 0 < p.blockLen) (hn : 0 < p.nRank) :
  ∃ (blocks : Nat → List Span) (whole : Blocks) (reports : List RankReport),
    (∀ r < p.nRank, p.blocks? r = .ok (blocks r)) ∧
    (Span.mk 0 p.nRecord).blocks? p.blockLen = .ok whole ∧
    (List.range p.nRank).flatMap blocks = whole.toList ∧
    whole.toList.countP (fun s => s.length < p.blockLen) ≤ 1 ∧
    (∀ r < p.nRank, ∀ (w : Window) (data : Data) (scratch : Scratch) (nArray : Nat),
      w.owned = p.owned r → 2 ≤ nArray → nArray ≤ w.nArray → nArray ≤ maxArray →
      scratch.blockLen = p.blockLen →
      (Session.outlines (reduceRank (p.owned r) nArray scratch).run
          (Immediate.new w) data).filterMap Call.Outline.stored = blocks r ∧
        (Session.outlines (reduceRank (p.owned r) nArray scratch).run (Threaded.new w)
          data).filterMap Call.Outline.stored = blocks r) ∧
    (reports = (List.range p.nRank).map fun r =>
      ⟨p.owned r, (blocks r).length, (p.owned r).length⟩) ∧
    (reports.map RankReport.nBlock).sum = p.nRecord ⌈/⌉ p.blockLen ∧
    ∀ (c : Context) (world : World) (host : Host), c.partition p.nRank = p → 2 ≤ c.nArray →
      (∀ (e : Executor) (v : View), e.nRank = p.nRank → c.ShownBy world.data.size v →
        (∀ given world', Ends (e.driveReduce host v c) world (.ok given) world' →
          given = reports) ∧
        (e.RunsOn host c.blockLen →
          ∃ world', Ends (e.driveReduce host v c) world (.ok reports) world')) ∧
      (∀ config, config.nRank host.poolSize = p.nRank →
        (∀ given world', Ends (reduceAccumulators host c config) world (.ok given) world' →
          given = reports) ∧
        ∀ required, c.layout.requiredLen = some required → required ≤ world.data.size →
          host.Carries config c.blockLen →
          ∃ world', Ends (reduceAccumulators host c config) world (.ok reports) world') ∧
      ∀ v rank config report world',
        Ends (reducePipeline host v c rank p.nRank config) world (.ok report) world' →
          reports[rank]? = some report
  := by
  use fun r => ((p.owned r).blocks p.blockLen hb).toList,
    (Span.mk 0 p.nRecord).blocks p.blockLen hb, p.reports
  constructor
  · intro r hr
    apply p.blocks?_eq_ok hb hr
  use dif_pos hb
  constructor
  · rw [← p.flatMap_blocks_shares hb hn, shares, List.flatMap_map]
  use Span.countP_short_le_one hb _
  constructor
  · intro r _ w data scratch nArray hw h₂ hnArray hmax hlen
    have hrange : ∀ i ∈ p.owned r, i ∈ w.owned := fun i hi => hw ▸ hi
    have himmediate := filterMap_stored_reduceRank (Immediate.obliging w)
      (Immediate.keeps_new w data) hrange h₂ hnArray hmax scratch
    have hthreaded := filterMap_stored_reduceRank (Threaded.obliging w)
      (Threaded.keeps_new w data) hrange h₂ hnArray hmax scratch
    simp only [hlen] at himmediate hthreaded
    exact ⟨himmediate, hthreaded⟩
  use p.reports_eq_map hb, p.sum_nBlock_reports hb hn
  intro c world host hp h₂
  constructor
  · intro e v he hv
    constructor
    · intro given world' hends
      rw [e.reports_of_ends_driveReduce h₂ hv hends, he, hp]
    · intro hhost
      obtain ⟨world', hends, -⟩ := e.reduces_driveReduce h₂ hv hhost
      rw [he, hp] at hends
      exact ⟨world', hends⟩
  constructor
  · intro config hrank
    constructor
    · intro given world' hends
      rw [reports_of_ends_reduceAccumulators h₂ hends, hrank, hp]
    · intro required hrequired hlen hhost
      have hpos : 0 < config.nRank host.poolSize := hrank ▸ hn
      obtain ⟨world', hends, -⟩ := reduces_reduceAccumulators h₂ hrequired hlen hpos hhost
      rw [hrank, hp] at hends
      exact ⟨world', hends⟩
  · intro v rank config report world' hends
    rw [← hp]
    apply report_of_ends_reducePipeline h₂ hends

/-- Three blocks and a tail are shared out among four ranks, the third of which gets nothing. Two
arrays reduced by these ranks make four blocks. -/
theorem Partition.blocks_uncut_four_ranks :
  ∃ blocks : Nat → List Span,
    (∀ r < 4, (Partition.mk 100 32 4).blocks? r = .ok (blocks r)) ∧
    (Partition.mk 100 32 4).owned 2 = ⟨64, 64⟩ ∧
    (List.range 4).flatMap blocks = [⟨0, 32⟩, ⟨32, 64⟩, ⟨64, 96⟩, ⟨96, 100⟩] ∧
    ∃ c : Context, c.layout = ⟨2, 100, 100⟩ ∧ c.blockLen = 32 ∧ 2 ≤ c.nArray ∧
      ∃ reports world',
        Ends (reduceAccumulators .ample c { nPipeline := some 4 })
          ⟨Array.replicate 200 (Lanes.splat 1.5), []⟩ (.ok reports) world' ∧
        (reports.map RankReport.nBlock).sum = 4
  := by
  obtain ⟨blocks, whole, reports, hblocks, hwhole, hflat, -, -, -, hsum, hreports⟩ :=
    blocks_uncut ⟨100, 32, 4⟩ (by decide) (by decide)
  obtain rfl : (Span.mk 0 100).blocks 32 (by decide) = whole := Except.ok.inj hwhole
  use blocks, hblocks, by decide
  constructor
  · rw [hflat, Blocks.toList_eq_cons rfl, Blocks.toList_eq_cons rfl, Blocks.toList_eq_cons rfl,
      Blocks.toList_eq_cons rfl, Blocks.toList_eq_nil rfl]
    rfl
  · use ⟨⟨2, 100, 100⟩, 32, by decide, by decide, by decide⟩, rfl, rfl, by decide
    obtain ⟨-, hall, -⟩ := hreports ⟨⟨2, 100, 100⟩, 32, by decide, by decide, by decide⟩
      ⟨Array.replicate 200 (Lanes.splat 1.5), []⟩ .ample rfl (by decide)
    obtain ⟨world', hends⟩ := (hall { nPipeline := some 4 } rfl).2 200 rfl
      (Nat.le_of_eq Array.size_replicate.symm) (Host.carries_ample _ 32)
    exact ⟨reports, world', hends, hsum⟩

end ReplicaSum
