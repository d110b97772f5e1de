import ReplicaSum.Proofs.Parked
import ReplicaSum.Proofs.Worker

/-!
# Reductions that fail

What becomes of a reduction whose range leaves the window of the rank, or that is to combine more
arrays than the window has. `Reducer.Fault` says which error it meets and which blocks lie before
the error. Every engine fails with this error, but not at the same moment: an immediate engine
refuses to fetch a block while the one before it is being consumed, whereas a threaded one reduces
that one as well.
-/

namespace ReplicaSum

/-- A span lies in another one. -/
def Span.Inside (s t : Span) : Prop := t.start ≤ s.start ∧ s.stop ≤ t.stop

instance (s t : Span) : Decidable (s.Inside t) :=
  inferInstanceAs (Decidable (t.start ≤ s.start ∧ s.stop ≤ t.stop))

namespace Reducer

/-- `Fault w nArray blocks cause done`: when `nArray` arrays are to be reduced over `blocks` through
the window `w`, the first request that fails does so with `cause`, and `done` are the blocks that
come before the one it is about. -/
inductive Fault (w : Window) (nArray : Nat) :
    List Span → TransferError → List Span → Prop where
  /-- The first block leaves the window. -/
  | first {s : Span} {rest : List Span} (hs : ¬ s.Inside w.owned) :
      Fault w nArray (s :: rest) (.outOfRange s w.owned) []
  /-- The first block lies in the window, but the window has too few arrays. -/
  | array {s : Span} {rest : List Span} (hs : s.Inside w.owned) (hn : w.nArray < nArray) :
      Fault w nArray (s :: rest) (.unknownArray w.nArray) []
  /-- The window has all arrays, but a block behind the first one leaves it. -/
  | later {s bad : Span} {good rest : List Span} (hn : nArray ≤ w.nArray)
      (hgood : ∀ b ∈ s :: good, b.Inside w.owned) (hbad : ¬ bad.Inside w.owned) :
      Fault w nArray (s :: good ++ bad :: rest) (.outOfRange bad w.owned) (s :: good)

variable {w : Window} {nArray room : Nat} {blocks : List Span} {s : Span}

/-- A list in which not all members have a property begins with members that have it, followed by
one that doesn't. -/
theorem exists_first_not {α : Type} {p : α → Prop} {xs : List α} (h : ∃ x ∈ xs, ¬ p x) :
  ∃ good bad rest, xs = good ++ bad :: rest ∧ (∀ x ∈ good, p x) ∧ ¬ p bad
  := by
  induction xs with
  | nil =>
    obtain ⟨x, hx, -⟩ := h
    cases hx
  | cons x xs ih =>
    by_cases hx : p x
    · obtain ⟨y, hy, hpy⟩ := h
      have hy : y ∈ xs := (List.mem_cons.mp hy).resolve_left (by rintro rfl; exact hpy hx)
      obtain ⟨good, bad, rest, rfl, hgood, hbad⟩ := ih ⟨y, hy, hpy⟩
      use x :: good, bad, rest, rfl
      constructor
      · simp only [List.mem_cons, forall_eq_or_imp]
        exact ⟨hx, hgood⟩
      · apply hbad
    · use [], x, xs, rfl
      constructor
      · simp
      · apply hx

/-- A reduction over blocks not all of which lie in the window, or over arrays that the window
doesn't have, meets a fault. -/
theorem exists_fault (hne : blocks ≠ [])
    (h : (∃ s ∈ blocks, ¬ s.Inside w.owned) ∨ w.nArray < nArray) :
  ∃ cause done, Fault w nArray blocks cause done
  := by
  obtain ⟨s, rest, rfl⟩ := List.exists_cons_of_ne_nil hne
  by_cases hs : s.Inside w.owned
  · by_cases hn : w.nArray < nArray
    · exact ⟨_, _, .array hs hn⟩
    · obtain ⟨good, bad, later, hsplit, hgood, hbad⟩ :=
        exists_first_not (h.resolve_right hn)
      cases good with
      | nil =>
        obtain ⟨rfl, -⟩ := List.cons.inj hsplit
        exact absurd hs hbad
      | cons s' good =>
        rw [hsplit]
        exact ⟨_, _, .later (Nat.le_of_not_lt hn) hgood hbad⟩
  · exact ⟨_, _, .first hs⟩

/-- There is only one way to split a list at the first member that doesn't have a property. -/
theorem first_not_unique {α : Type} {p : α → Prop} {good good' rest rest' : List α} {bad bad' : α}
    (h : good ++ bad :: rest = good' ++ bad' :: rest') (hgood : ∀ x ∈ good, p x) (hbad : ¬ p bad)
    (hgood' : ∀ x ∈ good', p x) (hbad' : ¬ p bad') :
  good = good' ∧ bad = bad'
  := by
  induction good generalizing good' with
  | nil =>
    cases good' with
    | nil => exact ⟨rfl, (List.cons.inj h).1⟩
    | cons x good' =>
      rw [(List.cons.inj h).1] at hbad
      exact absurd (hgood' x List.mem_cons_self) hbad
  | cons x good ih =>
    cases good' with
    | nil =>
      rw [← (List.cons.inj h).1] at hbad'
      exact absurd (hgood x List.mem_cons_self) hbad'
    | cons x' good' =>
      obtain ⟨rfl, htail⟩ := List.cons.inj h
      obtain ⟨rfl, rfl⟩ := ih htail (fun y hy => hgood y (.tail _ hy))
        (fun y hy => hgood' y (.tail _ hy))
      exact ⟨rfl, rfl⟩

/-- A reduction meets no more than one fault. -/
theorem Fault.unique {cause cause' : TransferError} {done done' : List Span}
    (h : Fault w nArray blocks cause done) (h' : Fault w nArray blocks cause' done') :
  cause = cause' ∧ done = done'
  := by
  generalize hsame : blocks = blocks' at h'
  cases h with
  | @first s rest hs =>
    cases h' with
    | first =>
      obtain ⟨rfl, -⟩ := List.cons.inj hsame
      exact ⟨rfl, rfl⟩
    | array hs' =>
      rw [(List.cons.inj hsame).1] at hs
      exact absurd hs' hs
    | later _ hgood =>
      rw [(List.cons.inj hsame).1] at hs
      exact absurd (hgood _ List.mem_cons_self) hs
  | array hs hn =>
    cases h' with
    | first hs' =>
      rw [(List.cons.inj hsame).1] at hs
      exact absurd hs hs'
    | array => exact ⟨rfl, rfl⟩
    | later hn' => exact absurd hn (Nat.not_lt.mpr hn')
  | later hn hgood hbad =>
    cases h' with
    | first hs' =>
      rw [← (List.cons.inj hsame).1] at hs'
      exact absurd (hgood _ List.mem_cons_self) hs'
    | array _ hn' => exact absurd hn' (Nat.not_lt.mpr hn)
    | later _ hgood' hbad' =>
      obtain ⟨hdone, rfl⟩ := first_not_unique hsame hgood hbad hgood' hbad'
      exact ⟨rfl, hdone⟩

/-- The blocks of a range that leaves the window don't all lie in the window. -/
theorem exists_not_inside {range : Span} {blockLen : Nat} {hb : 0 < blockLen}
    (hne : range.isEmpty = false) (h : ¬ range.Inside w.owned) :
  ∃ s ∈ (range.blocks blockLen hb).toList, ¬ s.Inside w.owned
  := by
  by_contra hall
  push Not at hall
  apply h
  have hlt : range.start < range.stop := by
    simpa [Span.isEmpty] using hne
  have hmem : ∀ i, range.start ≤ i → i < range.stop → i ∈ w.owned := by
    intro i hstart hstop
    obtain ⟨s, hs, hi⟩ :=
      Span.blocks_tiles.exists_mem_iff.mpr ⟨hstart, Nat.lt_of_lt_of_le hstop (Nat.le_max_right _ _)⟩
    have hinside := hall s hs
    rw [Span.Inside] at hinside
    rw [Span.mem_iff] at hi ⊢
    omega
  have hfirst := Span.mem_iff.mp (hmem range.start (Nat.le_refl _) hlt)
  have hlast := Span.mem_iff.mp (hmem (range.stop - 1) (by omega) (by omega))
  rw [Span.Inside]
  omega

/-- Blocks that fit the buffers pass the check when they lie in the window. -/
theorem check_of_inside (hlen : 0 < s.length ∧ s.length ≤ room) (h : s.Inside w.owned) :
  w.check s room = .ok ()
  := Window.check_eq_ok_iff.mpr ⟨hlen, h⟩

theorem check_of_not_inside (hlen : 0 < s.length ∧ s.length ≤ room) (h : ¬ s.Inside w.owned) :
  w.check s room = .error (.outOfRange s w.owned)
  := by
  rw [Window.check, if_neg, if_pos]
  · rw [Span.Inside] at h
    omega
  · rw [Span.isEmpty_iff]
    omega

/-! ### Splitting the arrays -/

theorem prime_append (scratch : Scratch) (first : Span) (as bs : List (Fin maxArray)) :
  Bare.prime scratch first (as ++ bs)
    = Bare.prime scratch first as >>= fun _ => Bare.prime scratch first bs
  := by
  induction as with
  | nil => simp only [List.nil_append, Bare.prime, pure_bind]
  | cons a as ih => simp only [List.cons_append, Bare.prime, ih, bind_assoc]

theorem consume_append (len : Nat) (next : Option Span) (as bs : List (Fin maxArray))
    (sum : BlockSum) :
  Bare.consume len next (as ++ bs) sum = Bare.consume len next as sum >>= Bare.consume len next bs
  := by
  induction as generalizing sum with
  | nil => simp only [List.nil_append, Bare.consume, pure_bind]
  | cons a as ih => simp only [List.cons_append, Bare.consume, ih, bind_assoc]

/-- When no block comes before a fault, there is an array of which the first block can't be fetched,
whereas it can be of all arrays before that one. -/
theorem Fault.exists_array {cause : TransferError} (h : Fault w nArray blocks cause [])
    (hm : 0 < w.nArray) (hn₀ : 0 < nArray) (hn : nArray ≤ maxArray)
    (hlen : ∀ b ∈ blocks, 0 < b.length ∧ b.length ≤ room) :
  ∃ (first : Span) (rest : List Span) (a : Fin maxArray) (as : List (Fin maxArray)),
    blocks = first :: rest ∧ a < nArray ∧ arrays nArray = arrays a ++ a :: as ∧
    (a = 0 ∨ a ≤ w.nArray ∧ w.check first room = .ok ()) ∧
    ∀ buffer : Buffer, buffer.records.size = room →
      (Transfer.get a first buffer).check w = .error cause
  := by
  cases h with
  | @first s rest hs =>
    obtain ⟨as, has⟩ := arrays_eq_cons hn₀ hn
    use s, rest, 0, as, rfl, hn₀, has, .inl rfl
    rintro buffer rfl
    rw [Transfer.check, Fin.val_zero, if_neg (Nat.not_le.mpr hm),
      check_of_not_inside (hlen s (.head _)) hs]
  | @array s rest hs hlt =>
    obtain ⟨as, has⟩ := arrays_eq_append hlt hn
    use s, rest, ⟨w.nArray, Nat.lt_of_lt_of_le hlt hn⟩, as, rfl, hlt, has
    constructor
    · exact .inr ⟨Nat.le_refl _, check_of_inside (hlen s (.head _)) hs⟩
    · intro buffer _
      rw [Transfer.check, if_pos (Nat.le_refl _)]

/-- The tag of an array is none of the tags of the arrays before it. -/
theorem not_isInput_arrays (a : Fin maxArray) :
  ¬ IsInput (arrays a) (.input a)
  := by
  rintro ⟨b, hb, hab⟩
  rw [Tag.input_inj] at hab
  exact Nat.lt_irrefl _ (hab ▸ mem_arrays.mp hb)

/-! ### On a sequential engine -/

variable {cause : TransferError} {done : List Span} {data : Data} {out : Tag}
variable {last bad : Span} {rest : List Span}

/-- A fault of the first block is reported when the block is consumed. -/
theorem Fault.runs_sequential_first {s : Sequential} {scratch : Scratch}
    (h : Fault w nArray blocks cause []) (hw : s.window = w) (hfits : w.Fits data.size)
    (hm : 0 < w.nArray) (hn₀ : 0 < nArray) (hn : nArray ≤ maxArray)
    (hlen : ∀ b ∈ blocks, 0 < b.length ∧ b.length ≤ scratch.blockLen)
    (hslot : ∀ tag, s.slots.get? tag = none) (report : RankReport) :
  ∃ s', RankM.Runs Call.Any (Bare.reduceAll (arrays nArray) out blocks scratch report) s data
    (.error (.error (.transfer cause))) s' data
  := by
  obtain ⟨first, rest, a, as, rfl, ha, has, hbefore, hcause⟩ := h.exists_array hm hn₀ hn hlen
  obtain ⟨s₁, hprime, hsame₁, hasked⟩ := Sequential.runs_prime scratch first (arrays nArray)
    (nodup_arrays nArray) (fun a _ => hslot (.input a)) data
  have hw₁ : s₁.window = w := hsame₁.window_eq.trans hw
  obtain ⟨sum, s₂, hconsume, hsame₂⟩ : ∃ sum s₂,
      RankM.Runs Call.Any (Bare.consume first.length rest.head? (arrays a) scratch.sum) s₁ data
        (.ok sum) s₂ data ∧ Sequential.SameOff (IsInput (arrays a)) s₁ s₂ := by
    rcases hbefore with rfl | ⟨hle, hcheck⟩
    · exact ⟨scratch.sum, s₁, .pure _ s₁ data, .refl _ s₁⟩
    · have hknown : ∀ b ∈ arrays a, b ∈ arrays nArray := fun b hb =>
        mem_arrays.mpr (Nat.lt_trans (mem_arrays.mp hb) ha)
      obtain ⟨sum, s₂, hconsume, hsame₂, -⟩ := Sequential.runs_consume rest.head? hw₁ hfits hcheck
        (arrays a) (nodup_arrays a) (fun b hb => Nat.lt_of_lt_of_le (mem_arrays.mp hb) hle)
        (fun b hb => hasked b (hknown b hb)) scratch.sum_size
      exact ⟨sum, s₂, hconsume, hsame₂⟩
  have hasked₂ : s₂.Asked data scratch.blockLen a (some first) := by
    apply (hasked a (mem_arrays.mpr ha)).congr hsame₂ (not_isInput_arrays a)
    intro _ _ _
    apply AgreeOn.refl
  obtain ⟨s', hfail⟩ := Sequential.runs_consume_error rest.head? as (hsame₂.window_eq.trans hw₁)
    hcause hasked₂
  use s'
  apply hprime.bind
  apply RankM.Runs.bind_error
  rw [has, consume_append]
  apply hconsume.bind hfail

/-- On a sequential engine, the reducer fails with the fault, after all blocks before it have been
reduced. -/
theorem Fault.runs_sequential {s : Sequential} {scratch : Scratch} {start stop : Nat}
    (h : Fault w nArray blocks cause done) (hw : s.window = w) (hfits : w.Fits data.size)
    (hm : 0 < w.nArray) (hn₀ : 0 < nArray) (hn : nArray ≤ maxArray)
    (hout : ¬ IsInput (arrays nArray) out) (htiles : Span.Tiles start stop blocks)
    (hlen : ∀ b ∈ blocks, 0 < b.length ∧ b.length ≤ scratch.blockLen)
    (hslot : ∀ tag, s.slots.get? tag = none) (report : RankReport) :
  ∃ s' data',
    RankM.Runs Call.Any (Bare.reduceAll (arrays nArray) out blocks scratch report) s data
      (.error (.error (.transfer cause))) s' data' ∧
    Reduced w.stride nArray (fun i => ∃ b ∈ done, i ∈ b) data data'
  := by
  have hnone : done = [] → Reduced w.stride nArray (fun i => ∃ b ∈ done, i ∈ b) data data := by
    rintro rfl
    apply Reduced.of_forall_not
    simp
  cases h with
  | first hs =>
    obtain ⟨s', hruns⟩ :=
      (Fault.first hs).runs_sequential_first hw hfits hm hn₀ hn hlen hslot report
    exact ⟨s', data, hruns, hnone rfl⟩
  | array hs hlt =>
    obtain ⟨s', hruns⟩ :=
      (Fault.array hs hlt).runs_sequential_first hw hfits hm hn₀ hn hlen hslot report
    exact ⟨s', data, hruns, hnone rfl⟩
  | @later first bad good rest hle hgood hbad =>
    obtain ⟨s₁, hprime, hsame₁, hasked⟩ := Sequential.runs_prime scratch first (arrays nArray)
      (nodup_arrays nArray) (fun a _ => hslot (.input a)) data
    have hlens : ∀ b ∈ first :: good, 0 < b.length ∧ b.length ≤ scratch.blockLen := fun b hb =>
      hlen b (List.mem_append_left (bad :: rest) hb)
    have hparked : Sequential.Parked (arrays nArray) out scratch.blockLen
        (first :: good ++ bad :: rest) (some scratch.outBuffer) s₁ data := by
      constructor
      · exact hasked
      · use none, scratch.outBuffer
        constructor
        · rw [hsame₁.slot_eq out hout, hslot out]
          rfl
        · exact ⟨rfl, Nat.le_of_eq scratch.size_outBuffer.symm⟩
    obtain ⟨s', data', hloop, hreduced⟩ := Sequential.runs_reduceBlocks_error hfits hn₀ hle hout
      (first :: good) (fun b hb => check_of_inside (hlens b hb) (hgood b hb))
      (check_of_not_inside (hlen bad (by simp)) hbad) htiles scratch.sum_size report
      (hsame₁.window_eq.trans hw) hparked
    exact ⟨s', data', hprime.bind hloop, hreduced⟩

/-! ### On an immediate engine -/

open Tracked (SameOff)

variable {e e' : Tracked} {spare : Option Buffer}

theorem writesBefore_new (w : Window) (p : Nat) :
  (Tracked.new w).WritesBefore p
  := .of_idle (e := .new w) (fun tag => TagSlots.get?_empty tag) p

/-- The first array of the last block that can be fetched has its turn: the block is handed out, but
fetching the next one is refused. -/
theorem runs_consume_error {a : Fin maxArray} {as : List (Fin maxArray)} {sum : BlockSum}
    (hw : e.window = w) (hfits : w.Fits data.size) (ha : a < w.nArray)
    (hlast : w.check last room = .ok ()) (hbad : w.check bad room = .error cause)
    (hfetching : e.Fetching data room a (some last)) (hsum : room ≤ sum.size) :
  RankM.Runs Call.Any (Bare.consume last.length (some bad) (a :: as) sum) e data
    (.error (.error (.transfer cause))) (e.freed (.input a)) data
  := by
  obtain ⟨buffer, held, -, hslot, hsize, htake⟩ := hfetching
  obtain ⟨⟨-, hroom⟩, -, hstop⟩ := Window.check_eq_ok_iff.mp hlast
  rw [hw] at htake
  have hwait := Tracked.runs_wait e (.input a) data
  rw [hslot] at hwait
  have hlen : last.length ≤ held.records.size := by omega
  have hfit : last.length ≤ sum.size := by omega
  obtain ⟨sum₁, -, hruns⟩ := runs_consume_of_wait hwait.anyCall htake hlen hfit
    (hfits.address_le ha hstop) (some bad) as
  apply hruns
  apply RankM.Runs.bind_error
  apply Tracked.runs_submit_error
  · rw [Tracked.slot_freed, if_pos rfl]
  · rw [Tracked.window_freed, hw, Transfer.check, if_neg (by omega), hsize, hbad]

/-- The loop fails while it consumes the last block before one that can't be fetched. Until then it
has reduced the blocks before that one, and then every array but the first one still has a block on
its way. -/
theorem runs_reduceBlocks_error {start stop : Nat} (hfits : w.Fits data.size) (hn₀ : 0 < nArray)
    (hn : nArray ≤ w.nArray) (hout : ¬ IsInput (arrays nArray) out) (good : List Span)
    (hgood : ∀ b ∈ good ++ [last], w.check b room = .ok ())
    (hbad : w.check bad room = .error cause)
    (htiles : Span.Tiles start stop (good ++ last :: bad :: rest)) {sum : BlockSum}
    (hsum : room ≤ sum.size) (report : RankReport) (hw : e.window = w)
    (h : Ready (arrays nArray) out room (good ++ last :: bad :: rest) spare e data) :
  ∃ e' data',
    RankM.Runs Call.Any
      (Bare.reduceBlocks (arrays nArray) out (good ++ last :: bad :: rest) sum spare report) e data
      (.error (.error (.transfer cause))) e' data' ∧
    SameOff (fun tag => IsInput (arrays nArray) tag ∨ tag = out) e e' ∧
    (∀ a ∈ arrays nArray, e'.slot (.input a) = none ↔ a = 0) ∧
    (e'.slot out = none ↔ good = [] ∧ e.slot out = none) ∧
    Reduced w.stride nArray (fun i => ∃ b ∈ good, i ∈ b) data data'
  := by
  induction good generalizing start e data sum spare report with
  | nil =>
    obtain ⟨as, has⟩ := arrays_eq_cons hn₀ (Nat.le_trans hn hfits.nArray_le)
    have hconsume : RankM.Runs Call.Any (Bare.consume last.length (some bad) (0 :: as) sum) e data
        (.error (.error (.transfer cause))) (e.freed (.input 0)) data :=
      runs_consume_error hw hfits (Nat.lt_of_lt_of_le hn₀ hn) (hgood last (by simp)) hbad
        (h.fetching 0 (mem_arrays.mpr hn₀)) hsum
    use e.freed (.input 0), data
    constructor
    · rw [has]
      apply RankM.Runs.bind_error hconsume
    constructor
    · exact SameOff.freed (.inl ⟨0, mem_arrays.mpr hn₀, rfl⟩)
    constructor
    · intro a ha
      obtain ⟨buffer, held, -, hslot, -⟩ := h.fetching a ha
      simp [hslot, eq_comm]
    constructor
    · rw [Tracked.slot_freed, if_neg]
      · simp
      · rintro rfl
        apply hout ⟨0, mem_arrays.mpr hn₀, rfl⟩
    · apply Reduced.of_forall_not
      simp
  | cons cur good ih =>
    cases htiles with
    | cons hcur htiles =>
    have hhead : ∀ s, (good ++ last :: bad :: rest).head? = some s → w.check s room = .ok () := by
      intro s hs
      apply hgood s
      cases good with
      | nil =>
        cases hs
        simp
      | cons b good =>
        cases hs
        simp
    obtain ⟨sum', spare', e₁, e₂, data₂, hconsume, hemit, hsame, hready, hname, hsize, hreduced⟩ :=
      runs_block hw hfits hn₀ hn hout (hgood cur List.mem_cons_self) hhead htiles hsum h
    obtain ⟨e', data', hloop, hsame', hfree, hslot, hreduced'⟩ :=
      ih (hreduced.size_eq ▸ hfits) (fun b hb => hgood b (List.mem_cons_of_mem cur hb)) htiles
        (hsize ▸ hsum) (report.addBlock cur.length) (hsame.window_eq.trans hw) hready
    use e', data'
    constructor
    · apply hconsume.anyCall.bind (hemit.anyCall.bind hloop)
    constructor
    · apply hsame.trans hsame'
    constructor
    · apply hfree
    constructor
    · -- The block is on its way out, or the ones behind it are.
      obtain ⟨b, hb, -⟩ := h.outgoing
      rw [hb, Option.map_some, Option.map_eq_some_iff] at hname
      obtain ⟨b₂, hb₂, -⟩ := hname
      rw [hslot, hb₂]
      simp
    · apply hreduced.cons_blocks hreduced' hn₀
      intro b hb
      apply (htiles.bounds (List.mem_append_left _ hb)).1

/-- When exactly the tags from the second one up to a bound are busy, their number is clear. -/
theorem nPending_eq {α : Type} {slots : TagSlots α} {m : Nat} (hm : m ≤ maxTags)
    (h : ∀ tag, slots.isPending tag = decide (0 < tag.index.val ∧ tag.index.val < m)) :
  slots.nPending = m - 1
  := by
  have hcount : ∀ m : Fin (maxTags + 1),
      (Tag.all.filter fun tag => decide (0 < tag.index.val ∧ tag.index.val < m.val)).length
        = m.val - 1 := by
    decide
  rw [TagSlots.nPending, TagSlots.pending, List.filter_congr fun tag _ => h tag]
  apply hcount ⟨m, Nat.lt_succ_of_le hm⟩

/-- Which transfers are in flight when the last block before one that can't be fetched is being
consumed, and how many: those of all arrays but the first one, and the store of the block before if
there is one. -/
theorem nPending_of_consuming {good : List Span} (hn₀ : 0 < nArray) (htags : nArray < maxTags)
    (hsame : SameOff (fun tag => IsInput (arrays nArray) tag ∨ tag = .output ⟨nArray, htags⟩)
      (.new w) e)
    (hinput : ∀ a ∈ arrays nArray, e.slot (.input a) = none ↔ a = 0)
    (hout : e.slot (.output ⟨nArray, htags⟩) = none ↔ good = []) :
  e.engine.slots.nPending = nArray - 1 + if good = [] then 0 else 1
  := by
  have hcount : nArray - 1 + (if good = [] then 0 else 1)
      = nArray + (if good = [] then 0 else 1) - 1 := by omega
  rw [hcount]
  apply nPending_eq
  · split <;> omega
  · rintro ⟨i⟩
    have hpending : e.engine.slots.isPending ⟨i⟩ = true ↔ e.slot ⟨i⟩ ≠ none :=
      Option.isSome_iff_ne_none
    rw [Bool.eq_iff_iff, decide_eq_true_iff, hpending]
    rcases Nat.lt_trichotomy i.val nArray with hi | hi | hi
    · have hlt : i.val < maxArray := Nat.lt_of_lt_of_le hi (Nat.le_of_lt_succ htags)
      have hslot := hinput ⟨i.val, hlt⟩ (mem_arrays.mpr hi)
      have htag : Tag.input ⟨i.val, hlt⟩ = ⟨i⟩ := rfl
      rw [htag] at hslot
      rw [ne_eq, hslot, Fin.ext_iff]
      simp only [Fin.val_zero]
      omega
    · obtain rfl : ⟨nArray, htags⟩ = i := Fin.ext hi.symm
      have htag : Tag.output ⟨nArray, htags⟩ = ⟨⟨nArray, htags⟩⟩ := rfl
      rw [htag] at hout
      rw [ne_eq, hout]
      by_cases hgood : good = []
      · simp [hgood]
      · simp [hgood, hn₀]
    · have hslot : e.slot ⟨i⟩ = none := by
        rw [hsame.slot_eq]
        · apply TagSlots.get?_empty
        · rintro (⟨a, ha, heq⟩ | heq)
          · have hval : i.val = a.val := congrArg Fin.val (Tag.mk.inj heq)
            have := mem_arrays.mp ha
            omega
          · have hval : i.val = nArray := congrArg Fin.val (Tag.mk.inj heq)
            omega
      simp only [hslot, ne_eq, not_true_eq_false, false_iff]
      split <;> omega

/-- The reducer fails while it consumes the last block before one that can't be fetched. -/
theorem runs_reduceAll_error {scratch : Scratch} {start stop : Nat} (hfits : w.Fits data.size)
    (hn₀ : 0 < nArray) (hn : nArray ≤ w.nArray) (htags : nArray < maxTags) (good : List Span)
    (hgood : ∀ b ∈ good ++ [last], w.check b scratch.blockLen = .ok ())
    (hbad : w.check bad scratch.blockLen = .error cause)
    (htiles : Span.Tiles start stop (good ++ last :: bad :: rest))
    (hlen : ∀ b ∈ good ++ last :: bad :: rest, b.length ≤ scratch.blockLen)
    (report : RankReport) :
  ∃ e' data',
    RankM.Runs Call.Any
      (Bare.reduceAll (arrays nArray) (.output ⟨nArray, htags⟩) (good ++ last :: bad :: rest)
        scratch report)
      (Tracked.new w) data (.error (.error (.transfer cause))) e' data' ∧
    e'.engine.slots.nPending = nArray - 1 + (if good = [] then 0 else 1) ∧
    Reduced w.stride nArray (fun i => ∃ b ∈ good, i ∈ b) data data'
  := by
  have hout := not_isInput_output htags
  have hslot : ∀ tag, (Tracked.new w).slot tag = none := fun tag => TagSlots.get?_empty tag
  have hflight : ∀ tag, (Tracked.new w).flight tag = none := fun tag => TagSlots.get?_empty tag
  obtain ⟨first, blocks, hblocks, hfirst⟩ : ∃ first blocks,
      good ++ last :: bad :: rest = first :: blocks ∧ first ∈ good ++ [last] := by
    cases good with
    | nil => exact ⟨_, _, rfl, List.mem_cons_self⟩
    | cons b good => exact ⟨_, _, rfl, List.mem_cons_self⟩
  obtain ⟨e₁, hprime, hsame₁, hfetching₁⟩ := runs_prime (e := .new w) rfl hfits
    (hgood first hfirst) (writesBefore_new w _) (arrays nArray) (nodup_arrays nArray)
    (fun a ha => Nat.lt_of_lt_of_le (mem_arrays.mp ha) hn)
    (fun a _ => ⟨hslot (.input a), hflight (.input a)⟩)
  have hready : Ready (arrays nArray) (.output ⟨nArray, htags⟩) scratch.blockLen
      (good ++ last :: bad :: rest) (some scratch.outBuffer) e₁ data := by
    rw [hblocks] at hlen ⊢
    apply Ready.of_primed hsame₁ hfetching₁ hout hflight _ hlen
    intro b hb
    rw [hslot] at hb
    cases hb
  obtain ⟨e', data', hloop, hsame', hinput, hfree, hreduced⟩ := runs_reduceBlocks_error hfits hn₀
    hn hout good hgood hbad htiles scratch.sum_size report hsame₁.window_eq hready
  use e', data'
  constructor
  · rw [hblocks] at hloop ⊢
    apply hprime.anyCall.bind hloop
  constructor
  · apply nPending_of_consuming hn₀ htags ((hsame₁.mono fun _ => .inl).trans hsame') hinput
    rw [hfree, hsame₁.slot_eq _ hout, hslot, and_iff_left rfl]
  · apply hreduced

/-- A fault of the first block is reported when the block is asked for. -/
theorem Fault.runs_immediate_first {scratch : Scratch} (h : Fault w nArray blocks cause [])
    (hfits : w.Fits data.size) (hm : 0 < w.nArray) (hn₀ : 0 < nArray) (hn : nArray ≤ maxArray)
    (hlen : ∀ b ∈ blocks, 0 < b.length ∧ b.length ≤ scratch.blockLen) (report : RankReport) :
  ∃ e', RankM.Runs Call.Any (Bare.reduceAll (arrays nArray) out blocks scratch report)
    (Tracked.new w) data (.error (.error (.transfer cause))) e' data
  := by
  have hslot : ∀ tag, (Tracked.new w).slot tag = none := fun tag => TagSlots.get?_empty tag
  have hflight : ∀ tag, (Tracked.new w).flight tag = none := fun tag => TagSlots.get?_empty tag
  obtain ⟨first, rest, a, as, rfl, ha, has, hbefore, hcause⟩ := h.exists_array hm hn₀ hn hlen
  obtain ⟨e₁, hprime, hsame⟩ : ∃ e₁,
      RankM.Runs Call.Any (Bare.prime scratch first (arrays a)) (Tracked.new w) data (.ok ())
        e₁ data ∧
      SameOff (IsInput (arrays a)) (.new w) e₁ := by
    rcases hbefore with rfl | ⟨hle, hcheck⟩
    · exact ⟨.new w, .pure () _ data, .refl _ _⟩
    · obtain ⟨e₁, hprime, hsame, -⟩ := runs_prime (e := .new w) rfl hfits hcheck
        (writesBefore_new w _) (arrays a) (nodup_arrays a)
        (fun b hb => Nat.lt_of_lt_of_le (mem_arrays.mp hb) hle)
        (fun b _ => ⟨hslot (.input b), hflight (.input b)⟩)
      exact ⟨e₁, hprime.anyCall, hsame⟩
  have hfree : e₁.slot (.input a) = none := by
    rw [hsame.slot_eq _ (not_isInput_arrays a), hslot]
  have hcheck : (Transfer.get a first (scratch.stagedBuffer a)).check e₁.window
      = .error cause := by
    have hw₁ : e₁.window = w := hsame.window_eq
    rw [hw₁, hcause _ (scratch.size_stagedBuffer a)]
  use e₁
  apply RankM.Runs.bind_error
  rw [has, prime_append]
  apply hprime.bind
  apply RankM.Runs.bind_error
  apply Tracked.runs_submit_error hfree hcheck data

/-- On an immediate engine, the reducer fails with the fault while it consumes the last block before
it. That block is not reduced any more, and the transfers of the other arrays are left in flight. -/
theorem Fault.runs_immediate {scratch : Scratch} {start stop : Nat}
    (h : Fault w nArray blocks cause done) (hfits : w.Fits data.size) (hm : 0 < w.nArray)
    (hn₀ : 0 < nArray) (hn : nArray < maxTags) (htiles : Span.Tiles start stop blocks)
    (hlen : ∀ b ∈ blocks, 0 < b.length ∧ b.length ≤ scratch.blockLen) (report : RankReport) :
  ∃ e' data',
    RankM.Runs Call.Any
      (Bare.reduceAll (arrays nArray) (.output ⟨nArray, hn⟩) blocks scratch report)
      (Immediate.new w) data (.error (.error (.transfer cause))) e' data' ∧
    Reduced w.stride nArray (fun i => ∃ b ∈ done.dropLast, i ∈ b) data data' ∧
    (done ≠ [] → e'.slots.nPending = nArray - 1 + if 2 ≤ done.length then 1 else 0)
  := by
  have hn' := Nat.le_of_lt_succ hn
  have hnone : done = [] →
      Reduced w.stride nArray (fun i => ∃ b ∈ done.dropLast, i ∈ b) data data := by
    rintro rfl
    apply Reduced.of_forall_not
    simp
  cases h with
  | first hs =>
    obtain ⟨e', hruns⟩ := (Fault.first hs).runs_immediate_first hfits hm hn₀ hn' hlen report
    exact ⟨e'.engine, data, Tracked.runs_engine hruns, hnone rfl, fun hne => absurd rfl hne⟩
  | array hs hlt =>
    obtain ⟨e', hruns⟩ := (Fault.array hs hlt).runs_immediate_first hfits hm hn₀ hn' hlen report
    exact ⟨e'.engine, data, Tracked.runs_engine hruns, hnone rfl, fun hne => absurd rfl hne⟩
  | @later first bad good rest hle hgood hbad =>
    obtain ⟨init, last, hdone⟩ : ∃ init last, first :: good = init ++ [last] :=
      ⟨_, _, (List.dropLast_append_getLast (List.cons_ne_nil _ _)).symm⟩
    have hblocks : first :: good ++ bad :: rest = init ++ last :: bad :: rest := by
      rw [hdone, List.append_assoc, List.singleton_append]
    have hcheck : ∀ b ∈ init ++ [last], w.check b scratch.blockLen = .ok () := by
      intro b hb
      rw [← hdone] at hb
      apply check_of_inside (hlen b (List.mem_append_left _ hb)) (hgood b hb)
    have hbad := check_of_not_inside (hlen bad (by simp)) hbad
    change Span.Tiles start stop (first :: good ++ bad :: rest) at htiles
    change ∀ b ∈ first :: good ++ bad :: rest, _ at hlen
    rw [hblocks] at htiles hlen
    obtain ⟨e', data', hruns, hpending, hreduced⟩ := runs_reduceAll_error hfits hn₀ hle hn init
      hcheck hbad htiles (fun b hb => (hlen b hb).2) report
    rw [← hblocks] at hruns
    use e'.engine, data', Tracked.runs_engine hruns
    rw [hdone, List.dropLast_concat, List.length_append, List.length_singleton, hpending]
    constructor
    · apply hreduced
    · intro _
      cases init with
      | nil => rfl
      | cons => simp

end Reducer

open Reducer

variable {w : Window} {data : Data} {nArray : Nat} {range : Span}

/-- A reduction over a range that leaves the window, or over more arrays than the window has, meets
a fault, and fails with it on an immediate engine and, under every schedule, on a threaded one. The
threaded engine reduces all blocks before the fault, the immediate one all of these but the last,
and nothing else changes. If any block comes before the fault, the immediate engine is left with a
transfer for each array but the first one, and with a store if it has stored a block. -/
theorem reduceRank_fault (scratch : Scratch) (hfits : w.Fits data.size) (hm : 0 < w.nArray)
    (h₂ : 2 ≤ nArray) (hn : nArray ≤ maxArray) (hne : range.isEmpty = false)
    (hbad : ¬ range.Inside w.owned ∨ w.nArray < nArray) :
  ∃ cause done,
    Fault w nArray (range.blocks scratch.blockLen scratch.isBlockLen.1).toList cause done ∧
    (∃ e' data',
      (reduceRank range nArray scratch).run.run (Immediate.new w) data
        = (.error (.error (.transfer cause)), e', data') ∧
      Reduced w.stride nArray (fun i => ∃ b ∈ done.dropLast, i ∈ b) data data' ∧
      (done ≠ [] → e'.slots.nPending = nArray - 1 + if 2 ≤ done.length then 1 else 0)) ∧
    ∀ e : Threaded, e.window = w → e.slots = .empty → e.queue = [] → e.pacing.Patient →
      Inevitably Worked.Step
        (fun st =>
          st.1.client = .running (.done (.error (.error (.transfer cause)))) ∧
          st.1.engine.queue = [] ∧
          Reduced w.stride nArray (fun i => ∃ b ∈ done, i ∈ b) data st.2)
        (⟨.running (reduceRank range nArray scratch).run, e, []⟩, data)
  := by
  have hn₀ : 0 < nArray := Nat.lt_of_lt_of_le Nat.two_pos h₂
  have htags : nArray < maxTags := Nat.lt_succ_of_le hn
  have hlen : ∀ b ∈ (range.blocks scratch.blockLen scratch.isBlockLen.1).toList,
      0 < b.length ∧ b.length ≤ scratch.blockLen := fun b => Blocks.length_of_mem_toList
  have htiles := Span.blocks_tiles (s := range) (h := scratch.isBlockLen.1)
  have hreduce : reduceRank range nArray scratch
      = Bare.reduceAll (arrays nArray) (.output ⟨nArray, htags⟩)
        (range.blocks scratch.blockLen scratch.isBlockLen.1).toList scratch (.empty range) :=
    reduceRank_eq_bare range h₂ hn scratch
  obtain ⟨cause, done, hfault⟩ : ∃ cause done,
      Fault w nArray (range.blocks scratch.blockLen scratch.isBlockLen.1).toList cause done := by
    apply exists_fault
    · rw [ne_eq, Span.blocks_eq_nil_iff, hne]
      simp
    · apply hbad.imp_left
      apply exists_not_inside hne
  use cause, done, hfault
  rw [hreduce]
  constructor
  · obtain ⟨e', data', hruns, hreduced, hpending⟩ :=
      hfault.runs_immediate hfits hm hn₀ htags htiles hlen (.empty range)
    exact ⟨e', data', hruns.run_eq, hreduced, hpending⟩
  · rintro e rfl hslots hqueue hpatient
    obtain ⟨s', data', hruns, hreduced⟩ := hfault.runs_sequential (s := .new e.window) rfl hfits hm
      hn₀ hn (not_isInput_output htags) htiles hlen (fun tag => TagSlots.get?_empty tag)
      (.empty range)
    apply (Worked.inevitably_of_run (.of_idle hpatient hslots hqueue data) hruns.run_eq).mono
    rintro st ⟨hclient, hempty, rfl⟩
    exact ⟨hclient, hempty, hreduced⟩

/-- The first five records of two arrays are in the window, and eight are to be reduced in blocks of
two. The third block leaves the window; the first one is reduced on an immediate engine, the first
two are on a threaded one. -/
theorem reduceRank_fault_third_block :
  ∃ data : Data, data = Array.replicate 13 (Lanes.splat 1.5) ∧
    (∃ e' data',
      (reduceRank ⟨0, 8⟩ 2 (.blank 2 (by decide))).run.run (Immediate.new ⟨⟨0, 5⟩, 2, 8⟩) data
        = (.error (.error (.transfer (.outOfRange ⟨4, 6⟩ ⟨0, 5⟩))), e', data') ∧
      Reduced 8 2 (· ∈ Span.mk 0 2) data data' ∧ e'.slots.nPending = 2) ∧
    Inevitably Worked.Step
      (fun st =>
        st.1.client = .running (.done (.error (.error (.transfer (.outOfRange ⟨4, 6⟩ ⟨0, 5⟩))))) ∧
        Reduced 8 2 (· ∈ Span.mk 0 4) data st.2)
      (.start ⟨⟨0, 5⟩, 2, 8⟩ (reduceRank ⟨0, 8⟩ 2 (.blank 2 (by decide))).run, data)
  := by
  use Array.replicate 13 (Lanes.splat 1.5), rfl
  have hsize : (Array.replicate 13 (Lanes.splat 1.5) : Data).size = 13 := Array.size_replicate
  have hfits : Window.Fits ⟨⟨0, 5⟩, 2, 8⟩ (Array.replicate 13 (Lanes.splat 1.5) : Data).size := by
    rw [hsize]
    exact ⟨by decide, by decide, by decide⟩
  have hblocks : (Span.blocks ⟨0, 8⟩ 2 (by decide)).toList
      = [⟨0, 2⟩, ⟨2, 4⟩] ++ ⟨4, 6⟩ :: [⟨6, 8⟩] := by
    rw [Blocks.toList_eq_cons (s := ⟨0, 2⟩) rfl, Blocks.toList_eq_cons (s := ⟨2, 4⟩) rfl,
      Blocks.toList_eq_cons (s := ⟨4, 6⟩) rfl, Blocks.toList_eq_cons (s := ⟨6, 8⟩) rfl,
      Blocks.toList_eq_nil rfl]
    rfl
  obtain ⟨cause, done, hfault, ⟨e', data', hrun, hreduced, hpending⟩, hinevitably⟩ :=
    reduceRank_fault (.blank 2 (by decide)) hfits (by decide) (Nat.le_refl 2) (by decide)
      (show Span.isEmpty ⟨0, 8⟩ = false from rfl) (.inl (by decide))
  have hlater : Fault ⟨⟨0, 5⟩, 2, 8⟩ 2 ([⟨0, 2⟩, ⟨2, 4⟩] ++ ⟨4, 6⟩ :: [⟨6, 8⟩])
      (.outOfRange ⟨4, 6⟩ ⟨0, 5⟩) [⟨0, 2⟩, ⟨2, 4⟩] :=
    .later (by decide) (by decide) (by decide)
  rw [← hblocks] at hlater
  obtain ⟨rfl, rfl⟩ := hfault.unique hlater
  constructor
  · use e', data', hrun
    constructor
    · apply hreduced.congr
      simp
    · exact hpending (by simp)
  · apply (hinevitably (.new _) rfl rfl rfl (Pacing.patient_of_none _)).mono
    rintro st ⟨hclient, -, hreduced⟩
    use hclient
    apply hreduced.congr
    intro i
    simp only [List.mem_cons, List.not_mem_nil, or_false, exists_eq_or_imp, exists_eq_left,
      Span.mem_iff]
    omega

end ReplicaSum
