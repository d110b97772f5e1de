import ReplicaSum.Rank
import ReplicaSum.Proofs.Slots
import ReplicaSum.Proofs.InFlight
import ReplicaSum.Proofs.Tiling

/-!
# The block loop

What the reducer does on a tracked engine: every call that it makes is safe, its report counts its
blocks and its records, and the records of array `0` in its range are replaced by their sums.

Between two blocks, the next block of every array is on its way into the buffer of the array, and at
most one block is on its way out. The outgoing block lies before everything that is read from
then on. `Reducer.Ready` is this invariant.
-/

namespace ReplicaSum

/-- What stays the same of a buffer while records are copied into it. -/
def Buffer.shape (b : Buffer) : BufferName × Nat := (b.name, b.records.size)

namespace Tracked

variable {w : Window} {e e' : Tracked} {data : Data} {room : Nat} {a : Fin maxArray} {s : Span}
variable {tags : Tag → Prop}

/-- The records of a span of array `a` are on their way into a buffer of `room` records, or have
arrived there. Without a span, the tag of the array is free. -/
def Fetching (e : Tracked) (data : Data) (room : Nat) (a : Fin maxArray) : Option Span → Prop
  | none => e.slot (.input a) = none ∧ e.flight (.input a) = none
  | some s => ∃ buffer held,
      e.flight (.input a) = some (.get a s buffer) ∧ e.slot (.input a) = some held ∧
      held.records.size = room ∧ held.records.take s.length = e.window.block data a s

/-- All transfers in flight write only before `p`. -/
def WritesBefore (e : Tracked) (p : Nat) : Prop :=
  ∀ tag u, e.flight tag = some u → ∀ i ∈ u.writes, i < p

/-- With nothing in flight, nothing is written. -/
theorem WritesBefore.of_idle (h : ∀ tag, e.flight tag = none) (p : Nat) :
  e.WritesBefore p
  := by
  intro tag u hu
  rw [h tag] at hu
  cases hu

/-- What is fetched for an array is not affected by what happens under other tags and to other
records. -/
theorem Fetching.congr {next : Option Span} {data' : Data} (h : e.Fetching data room a next)
    (hsame : SameOff tags e e') (htags : ¬ tags (.input a))
    (hdata : ∀ s, next = some s → e.window.block data' a s = e.window.block data a s) :
  e'.Fetching data' room a next
  := by
  cases next with
  | none => exact ⟨(hsame.slot_eq _ htags).trans h.1, (hsame.flight_eq _ htags).trans h.2⟩
  | some s =>
    obtain ⟨buffer, held, hflight, hslot, hsize, htake⟩ := h
    use buffer, held
    constructor
    · rw [hsame.flight_eq _ htags, hflight]
    constructor
    · rw [hsame.slot_eq _ htags, hslot]
    constructor
    · apply hsize
    · rw [hsame.window_eq, htake, hdata s rfl]

theorem Fetching.not_mem_writes {next : Option Span} (h : e.Fetching data room a next)
    {u : Transfer} (hu : e.flight (.input a) = some u) (i : Nat) :
  i ∉ u.writes
  := by
  cases next with
  | none =>
    rw [h.2] at hu
    cases hu
  | some s =>
    obtain ⟨buffer, held, hflight, -⟩ := h
    rw [hflight] at hu
    cases hu
    simp only [Transfer.writes, Span.mem_iff]
    omega

/-- Fetching records writes nothing. -/
theorem WritesBefore.of_fetching {p : Nat} {next : Option Span} (h : e.WritesBefore p)
    (hsame : SameOff (· = .input a) e e') (hfetching : e'.Fetching data room a next) :
  e'.WritesBefore p
  := by
  intro tag u hu i hi
  rcases eq_or_ne tag (.input a) with rfl | htag
  · exact absurd hi (hfetching.not_mem_writes hu i)
  · rw [hsame.flight_eq tag htag] at hu
    apply h tag u hu i hi

/-- Records of a window can be fetched under a free tag while nothing behind their start is
stored. -/
theorem runs_beginGet {buffer : Buffer} (hw : e.window = w) (hfits : w.Fits data.size)
    (ha : a < w.nArray) (hs : w.check s buffer.records.size = .ok ())
    (hslot : e.slot (.input a) = none) (hwrites : e.WritesBefore s.start) :
  ∃ e', RankM.Runs Safe (RankM.beginGet (.input a) a s buffer) e data (.ok ()) e' data ∧
    SameOff (· = .input a) e e' ∧ e'.Fetching data buffer.records.size a (some s)
  := by
  subst hw
  have hcheck : (Transfer.get a s buffer).check e.window = .ok () := by
    rw [Transfer.check, if_neg (by omega), hs]
  obtain ⟨⟨-, hfit⟩, -, hstop⟩ := Window.check_eq_ok_iff.mp hs
  use e.begun (.input a) (.get a s buffer) data
  constructor
  · apply runs_submit hslot hcheck
    intro tag u hu
    apply Transfer.compatible_get
    apply hwrites tag u hu
  constructor
  · exact SameOff.begun rfl
  · use buffer, { buffer with records := e.window.load data a s buffer.records }
    constructor
    · rw [flight_begun, if_pos rfl]
    constructor
    · rw [slot_begun, if_pos rfl]
      rfl
    constructor
    · apply size_overwrite _ _ _
    · apply Window.take_load hfit (hfits.address_le ha hstop)

/-- Refilling the buffer of an array leaves the next block on its way, or the tag free. -/
theorem runs_refill {buffer : Buffer} {next : Option Span} (hw : e.window = w)
    (hfits : w.Fits data.size) (ha : a < w.nArray)
    (hnext : ∀ s, next = some s →
      w.check s buffer.records.size = .ok () ∧ e.WritesBefore s.start)
    (hslot : e.slot (.input a) = none) (hflight : e.flight (.input a) = none) :
  ∃ e', RankM.Runs Safe (Reducer.Bare.refill a next buffer) e data (.ok ()) e' data ∧
    SameOff (· = .input a) e e' ∧ e'.Fetching data buffer.records.size a next
  := by
  cases next with
  | none => exact ⟨e, .pure () e data, .refl _ e, hslot, hflight⟩
  | some s =>
    obtain ⟨hs, hwrites⟩ := hnext s rfl
    apply runs_beginGet hw hfits ha hs hslot hwrites

end Tracked

namespace Reducer

open Tracked (SameOff)

variable {w : Window} {e e₁ e' : Tracked} {data data' : Data} {room : Nat}
variable {a : Fin maxArray} {as : List (Fin maxArray)} {next : Option Span}

/-- The tags of the given arrays. -/
def IsInput (as : List (Fin maxArray)) (tag : Tag) : Prop := ∃ a ∈ as, tag = .input a

theorem isInput_cons {tag : Tag} :
  IsInput (a :: as) tag ↔ tag = .input a ∨ IsInput as tag
  := by
  simp [IsInput]

/-- Different arrays have different tags. -/
theorem input_ne {b : Fin maxArray} (ha : a ∉ as) (hb : b ∈ as) :
  Tag.input b ≠ .input a
  := by
  intro hba
  rw [Tag.input_inj] at hba
  apply ha (hba ▸ hb)

theorem not_isInput_input (ha : a ∉ as) :
  ¬ IsInput as (.input a)
  := by
  rintro ⟨b, hb, hab⟩
  apply input_ne ha hb hab.symm

/-! ### Turns -/

/-- What an engine holds for the arrays, and when it holds the same as another one. -/
structure Stock (σ : Type) where
  /-- Apart from some tags, two engines hold the same. -/
  SameOff : (Tag → Prop) → σ → σ → Prop
  /-- A block of an array has been asked for, or none. -/
  Holds : σ → Fin maxArray → Option Span → Prop
  refl : ∀ tags engine, SameOff tags engine engine
  trans : ∀ {tags engine engine₁ engine'}, SameOff tags engine engine₁ →
    SameOff tags engine₁ engine' → SameOff tags engine engine'
  mono : ∀ {tags tags' engine engine'}, SameOff tags engine engine' → (∀ u, tags u → tags' u) →
    SameOff tags' engine engine'
  congr : ∀ {tags engine engine' a next}, Holds engine a next → SameOff tags engine engine' →
    ¬ tags (.input a) → Holds engine' a next

namespace Stock

variable {σ : Type} {engine engine₁ engine' : σ}

/-- What has been done for the first array stays as it is while the other arrays have their turn. -/
theorem holds_cons {S : Stock σ} (ha : a ∉ as) (hfirst : S.Holds engine₁ a next)
    (hsame : S.SameOff (IsInput as) engine₁ engine')
    (hrest : ∀ b ∈ as, S.Holds engine' b next) :
  ∀ b ∈ a :: as, S.Holds engine' b next
  := by
  intro b hb
  rcases List.mem_cons.mp hb with rfl | hb
  · apply S.congr hfirst hsame (not_isInput_input ha)
  · apply hrest b hb

theorem sameOff_cons {S : Stock σ} (h : S.SameOff (· = .input a) engine engine₁)
    (h' : S.SameOff (IsInput as) engine₁ engine') :
  S.SameOff (IsInput (a :: as)) engine engine'
  := by
  apply S.trans (S.mono h ?_) (S.mono h' ?_)
  · intro tag htag
    apply isInput_cons.mpr (.inl htag)
  · intro tag htag
    apply isInput_cons.mpr (.inr htag)

/-- What happens under a tag that no array has leaves what is held for the arrays as it is. -/
theorem holds_of_sameOff {S : Stock σ} {out : Tag} (hout : ¬ IsInput as out)
    (hsame : S.SameOff (· = out) engine engine') (h : ∀ a ∈ as, S.Holds engine a next) :
  ∀ a ∈ as, S.Holds engine' a next
  := by
  intro a ha
  apply S.congr (h a ha) hsame
  rintro rfl
  apply hout ⟨a, ha, rfl⟩

/-- All arrays have their turns, one after the other. A turn begins with the block `before` of its
array being held and ends with the block `after`, and keeps the invariant `I`. What the turns of
some arrays make of a value and of an engine is `Does`. -/
theorem turns (S : Stock σ) {γ : Type} (before after : Option Span) (I : σ → γ → Prop)
    (Does : List (Fin maxArray) → γ → σ → γ → σ → Prop)
    (hnil : ∀ c engine, Does [] c engine c engine) (as : List (Fin maxArray)) (hnodup : as.Nodup)
    (hturn : ∀ a ∈ as, ∀ rest engine c, I engine c → S.Holds engine a before →
      ∃ c₁ engine₁, S.SameOff (· = .input a) engine engine₁ ∧ S.Holds engine₁ a after ∧
        I engine₁ c₁ ∧
        ∀ c' engine', Does rest c₁ engine₁ c' engine' → Does (a :: rest) c engine c' engine')
    (engine : σ) (c : γ) (hI : I engine c) (hbefore : ∀ a ∈ as, S.Holds engine a before) :
  ∃ c' engine', Does as c engine c' engine' ∧ I engine' c' ∧
    S.SameOff (IsInput as) engine engine' ∧ ∀ a ∈ as, S.Holds engine' a after
  := by
  induction as generalizing engine c with
  | nil => exact ⟨c, engine, hnil c engine, hI, S.refl _ engine, by simp⟩
  | cons a rest ih =>
    obtain ⟨harest, hrest⟩ := List.nodup_cons.mp hnodup
    obtain ⟨c₁, engine₁, hsame, hafter, hI₁, hdoes⟩ :=
      hturn a List.mem_cons_self rest engine c hI (hbefore a List.mem_cons_self)
    have hbefore₁ : ∀ b ∈ rest, S.Holds engine₁ b before := by
      intro b hb
      apply S.congr (hbefore b (List.mem_cons_of_mem a hb)) hsame (input_ne harest hb)
    obtain ⟨c', engine', hdoes', hI', hsame', hafter'⟩ :=
      ih hrest (fun b hb => hturn b (List.mem_cons_of_mem a hb)) engine₁ c₁ hI₁ hbefore₁
    exact ⟨c', engine', hdoes c' engine' hdoes', hI', sameOff_cons hsame hsame',
      holds_cons harest hafter hsame' hafter'⟩

/-- All arrays have their turns in a program of a rank that leaves the data alone. What all turns
have made of a value is `R`. -/
theorem runs_turns [TransferEngine σ] {P : Call → σ → Data → Prop} {γ : Type} (S : Stock σ)
    (before after : Option Span) (turns : List (Fin maxArray) → γ → RankM γ) (I : σ → γ → Prop)
    (R : List (Fin maxArray) → γ → γ → Prop) (hnil : ∀ c, turns [] c = pure c)
    (hR : ∀ c, R [] c c) (as : List (Fin maxArray)) (hnodup : as.Nodup)
    (hturn : ∀ a ∈ as, ∀ rest engine c, I engine c → S.Holds engine a before →
      ∃ c₁ engine₁, S.SameOff (· = .input a) engine engine₁ ∧ S.Holds engine₁ a after ∧
        I engine₁ c₁ ∧ (∀ c', R rest c₁ c' → R (a :: rest) c c') ∧
        ∀ c' engine', RankM.Runs P (turns rest c₁) engine₁ data (.ok c') engine' data →
          RankM.Runs P (turns (a :: rest) c) engine data (.ok c') engine' data)
    {c : γ} (hI : I engine c) (hbefore : ∀ a ∈ as, S.Holds engine a before) :
  ∃ c' engine', RankM.Runs P (turns as c) engine data (.ok c') engine' data ∧
    S.SameOff (IsInput as) engine engine' ∧ (∀ a ∈ as, S.Holds engine' a after) ∧ R as c c'
  := by
  obtain ⟨c', engine', ⟨hruns, hrel⟩, -, hsame, hafter⟩ := S.turns before after I
    (fun as c engine c' engine' =>
      RankM.Runs P (turns as c) engine data (.ok c') engine' data ∧ R as c c')
    (fun c engine => ⟨hnil c ▸ .pure c engine data, hR c⟩) as hnodup
    (by
      intro a ha rest engine c hI hbefore
      obtain ⟨c₁, engine₁, hsame, hafter, hI₁, hcons, hruns⟩ := hturn a ha rest engine c hI hbefore
      exact ⟨c₁, engine₁, hsame, hafter, hI₁, fun c' engine' h =>
        ⟨hruns c' engine' h.1, hcons c' h.2⟩⟩)
    engine c hI hbefore
  exact ⟨c', engine', hruns, hsame, hafter, hrel⟩

end Stock

/-- The front of a running sum, once the records of a block of the given arrays have been put into
it. -/
structure Absorbed (w : Window) (data : Data) (cur : Span) (as : List (Fin maxArray))
    (sum sum' : BlockSum) : Prop where
  size_eq : sum'.size = sum.size
  getElem?_eq : ∀ j < cur.length, sum'[j]? =
    sum[j]?.map (absorbRecords as fun a => recordAt data (w.address a (cur.start + j)))

namespace Absorbed

variable {cur : Span} {sum sum₁ sum' : BlockSum}

theorem nil (w : Window) (data : Data) (cur : Span) (sum : BlockSum) :
  Absorbed w data cur [] sum sum
  where
  size_eq := rfl
  getElem?_eq j _ := by
    cases sum[j]? <;> rfl

theorem cons (h : Absorbed w data cur [a] sum sum₁) (h' : Absorbed w data cur as sum₁ sum') :
  Absorbed w data cur (a :: as) sum sum'
  where
  size_eq := h'.size_eq.trans h.size_eq
  getElem?_eq j hj := by
    rw [h'.getElem?_eq j hj, h.getElem?_eq j hj, Option.map_map]
    rfl

end Absorbed

/-! ### Priming and consuming -/

section Engine

variable {σ : Type} [TransferEngine σ] {P : Call → σ → Data → Prop} {engine engine₁ : σ}

/-- On any engine that hands out a block of an array, the block is put into the running sum. What
is left to do is to refill its buffer and to consume the other arrays. -/
theorem runs_consume_of_wait {cur : Span} {held : Buffer} {sum : BlockSum}
    (hwait : RankM.Runs P (RankM.wait (.input a)) engine data (.ok (some held)) engine₁ data)
    (htake : held.records.take cur.length = w.block data a cur)
    (hlen : cur.length ≤ held.records.size) (hsum : cur.length ≤ sum.size)
    (hinside : w.address a cur.stop ≤ data.size) (next : Option Span)
    (rest : List (Fin maxArray)) :
  ∃ sum₁, Absorbed w data cur [a] sum sum₁ ∧
    ∀ {outcome engine' data'},
      RankM.Runs P (Bare.refill a next held >>= fun _ => Bare.consume cur.length next rest sum₁)
        engine₁ data outcome engine' data' →
      RankM.Runs P (Bare.consume cur.length next (a :: rest) sum) engine data outcome engine' data'
  := by
  have hblock : (w.block data a cur).size ≤ sum.size := by
    rw [Window.size_block hinside]
    apply hsum
  obtain ⟨sum₁, habsorb, hsize₁, hsum₁⟩ := absorb_eq_ok a hblock
  use sum₁
  constructor
  · use hsize₁
    intro j hj
    apply hsum₁
    apply w.getElem?_block_eq_recordAt hinside hj
  · intro outcome engine' data' hrest
    apply hwait.bind
    apply RankM.Runs.bind (RankM.Runs.pure held _ data)
    apply RankM.Runs.bind (RankM.Runs.insist (Buffer.front_eq_ok hlen) _ data)
    rw [htake]
    apply RankM.Runs.bind (RankM.Runs.insist habsorb _ data) hrest

end Engine

/-- What a tracked engine holds for the arrays. -/
def stock (data : Data) (room : Nat) : Stock Tracked where
  SameOff := SameOff
  Holds e a next := e.Fetching data room a next
  refl := .refl
  trans := .trans
  mono := .mono
  congr h hsame htags := h.congr hsame htags fun _ _ => rfl

/-- Priming begins to fetch the first block of every array. -/
theorem runs_prime {scratch : Scratch} {first : Span} (hw : e.window = w)
    (hfits : w.Fits data.size) (hfirst : w.check first scratch.blockLen = .ok ())
    (hwrites : e.WritesBefore first.start)
    (as : List (Fin maxArray)) (hnodup : as.Nodup) (has : ∀ a ∈ as, a < w.nArray)
    (hfree : ∀ a ∈ as, e.slot (.input a) = none ∧ e.flight (.input a) = none) :
  ∃ e', RankM.Runs Tracked.Safe (Bare.prime scratch first as) e data (.ok ()) e' data ∧
    SameOff (IsInput as) e e' ∧ ∀ a ∈ as, e'.Fetching data scratch.blockLen a (some first)
  := by
  suffices h : ∃ (c : Unit) (e' : Tracked),
      RankM.Runs Tracked.Safe (Bare.prime scratch first as) e data (.ok c) e' data ∧
      SameOff (IsInput as) e e' ∧
      (∀ a ∈ as, e'.Fetching data scratch.blockLen a (some first)) ∧ True by
    obtain ⟨⟨⟩, e', hruns, hsame, hfetching, -⟩ := h
    exact ⟨e', hruns, hsame, hfetching⟩
  refine (stock data scratch.blockLen).runs_turns none (some first)
    (fun as _ => Bare.prime scratch first as) (fun e _ => e.window = w ∧ e.WritesBefore first.start)
    (fun _ _ _ => True) (fun _ => rfl) (fun _ => trivial) as hnodup ?_ (c := ())
    ⟨hw, hwrites⟩ hfree
  rintro a ha rest e c ⟨hw, hwrites⟩ ⟨hslot, -⟩
  obtain ⟨e₁, hrun, hsame, hfetching⟩ :
      ∃ e₁, RankM.Runs Tracked.Safe
        (RankM.beginGet (.input a) a first (scratch.stagedBuffer a)) e data (.ok ()) e₁ data ∧
        SameOff (· = .input a) e e₁ ∧ e₁.Fetching data scratch.blockLen a (some first) := by
    rw [← scratch.size_stagedBuffer a] at hfirst ⊢
    exact Tracked.runs_beginGet hw hfits (has a ha) hfirst hslot hwrites
  have hwrites₁ : e₁.WritesBefore first.start := hwrites.of_fetching hsame hfetching
  exact ⟨(), e₁, hsame, hfetching, ⟨hsame.window_eq.trans hw, hwrites₁⟩, fun _ _ => trivial,
    fun _ _ hrest => hrun.bind hrest⟩

/-- One array has its turn: its block is put into the running sum, and its next block is asked
for. -/
theorem runs_consume_cons {cur : Span} {sum : BlockSum} (rest : List (Fin maxArray))
    (hw : e.window = w) (hfits : w.Fits data.size) (hcur : w.check cur room = .ok ())
    (hnext : ∀ s, next = some s → w.check s room = .ok () ∧ cur.stop ≤ s.start)
    (hwrites : e.WritesBefore cur.start) (ha : a < w.nArray)
    (hfetching : e.Fetching data room a (some cur)) (hsum : room ≤ sum.size) :
  ∃ sum₁ e₁,
    SameOff (· = .input a) e e₁ ∧ e₁.Fetching data room a next ∧
    Absorbed w data cur [a] sum sum₁ ∧
    ∀ {outcome e' data'},
      RankM.Runs Tracked.Safe (Bare.consume cur.length next rest sum₁) e₁ data outcome e' data' →
      RankM.Runs Tracked.Safe (Bare.consume cur.length next (a :: rest) sum) e data outcome e' data'
  := by
  obtain ⟨buffer, held, hflight, hslot, hsize, htake⟩ := hfetching
  obtain ⟨⟨hpos, hroom⟩, -, hstop⟩ := Window.check_eq_ok_iff.mp hcur
  rw [hw] at htake
  have hwait := Tracked.runs_wait e (.input a) data
  rw [hslot] at hwait
  have hlen : cur.length ≤ held.records.size := by omega
  have hfit : cur.length ≤ sum.size := by omega
  obtain ⟨sum₁, habsorbed, hruns⟩ := runs_consume_of_wait hwait htake hlen hfit
    (hfits.address_le ha hstop) next rest
  have hw' : (e.freed (.input a)).window = w := hw
  have hfreed : SameOff (· = .input a) e (e.freed (.input a)) := SameOff.freed rfl
  obtain ⟨e₁, hrefill, hsame, hfetching₁⟩ : ∃ e₁,
      RankM.Runs Tracked.Safe (Bare.refill a next held) (e.freed (.input a)) data (.ok ()) e₁ data ∧
      SameOff (· = .input a) (e.freed (.input a)) e₁ ∧ e₁.Fetching data room a next := by
    rw [← hsize]
    apply Tracked.runs_refill hw' hfits ha
    · intro s hs
      obtain ⟨hcheck, hle⟩ := hnext s hs
      constructor
      · rw [hsize]
        apply hcheck
      · intro tag u hu i hi
        rw [Tracked.flight_freed] at hu
        split at hu
        · cases hu
        · have := hwrites tag u hu i hi
          simp only [Span.length] at hpos
          omega
    · rw [Tracked.slot_freed, if_pos rfl]
    · rw [Tracked.flight_freed, if_pos rfl]
  use sum₁, e₁
  constructor
  · apply hfreed.trans hsame
  constructor
  · apply hfetching₁
  constructor
  · apply habsorbed
  · intro outcome e' data' hrest
    apply hruns (hrefill.bind hrest)

/-- Consuming a block of every array gives, at the front of the running sum, the sums of the records
of the block. -/
theorem runs_consume {cur : Span} (hw : e.window = w) (hfits : w.Fits data.size)
    (hcur : w.check cur room = .ok ())
    (hnext : ∀ s, next = some s → w.check s room = .ok () ∧ cur.stop ≤ s.start)
    (hwrites : e.WritesBefore cur.start)
    (as : List (Fin maxArray)) (hnodup : as.Nodup) (has : ∀ a ∈ as, a < w.nArray)
    (hfetching : ∀ a ∈ as, e.Fetching data room a (some cur))
    {sum : BlockSum} (hsum : room ≤ sum.size) :
  ∃ sum' e',
    RankM.Runs Tracked.Safe (Bare.consume cur.length next as sum) e data (.ok sum') e' data ∧
    SameOff (IsInput as) e e' ∧ (∀ a ∈ as, e'.Fetching data room a next) ∧
    Absorbed w data cur as sum sum'
  := by
  refine (stock data room).runs_turns (some cur) next (Bare.consume cur.length next)
    (fun e sum => e.window = w ∧ e.WritesBefore cur.start ∧ room ≤ sum.size)
    (Absorbed w data cur) (fun _ => rfl) (Absorbed.nil w data cur) as hnodup ?_
    ⟨hw, hwrites, hsum⟩ hfetching
  rintro a ha rest e sum ⟨hw, hwrites, hsum⟩ hfetching
  obtain ⟨sum₁, e₁, hsame, hfetching₁, habsorbed, hruns⟩ :=
    runs_consume_cons rest hw hfits hcur hnext hwrites (has a ha) hfetching hsum
  use sum₁, e₁, hsame, hfetching₁
  constructor
  · exact ⟨hsame.window_eq.trans hw, hwrites.of_fetching hsame hfetching₁,
      habsorbed.size_eq ▸ hsum⟩
  · exact ⟨fun _ => habsorbed.cons, fun _ _ => hruns⟩

/-! ### Storing -/

/-- The buffer for a block is the one that has been handed back, or else the spare one. -/
theorem chooseOut_eq {returned spare : Option Buffer} {b : Buffer}
    (h : returned.or spare = some b) :
  ∃ spare', chooseOut returned spare = (some b, spare')
  := by
  cases returned with
  | none =>
    rw [Option.none_or] at h
    rw [h]
    exact ⟨none, rfl⟩
  | some held =>
    rw [Option.some_or] at h
    rw [h]
    exact ⟨spare, rfl⟩

section Engine

variable {σ : Type} [TransferEngine σ] {P : Call → σ → Data → Prop} {engine engine₁ : σ}

/-- On any engine that hands out the outgoing buffer or leaves it to the spare one, the front of the
sum is rounded into the buffer. What is left to do is to store it. -/
theorem runs_emit_of_wait {out : Tag} {cur : Span} {sum : BlockSum} {returned spare : Option Buffer}
    {b : Buffer}
    (hwait : RankM.Runs P (RankM.wait out) engine data (.ok returned) engine₁ data)
    (hb : returned.or spare = some b) (hlen : cur.length ≤ b.records.size)
    (hsum : cur.length ≤ sum.size) :
  ∃ b' spare', b'.name = b.name ∧ b'.records.size = b.records.size ∧
    (∀ i, (w.store data cur b'.records)[i]? =
      if i ∈ cur ∧ i < data.size then sum[i - cur.start]?.map Lanes.demote else data[i]?) ∧
    ∀ {engine' data'},
      RankM.Runs P (RankM.beginPut out cur b') engine₁ data (.ok ()) engine' data' →
      RankM.Runs P (Bare.emit out cur sum spare) engine data (.ok spare') engine' data'
  := by
  obtain ⟨b', hfill, hname, hsize, hrecords⟩ := Buffer.fill_eq_ok hlen hsum
  obtain ⟨spare', hchoose⟩ := chooseOut_eq hb
  use b', spare', hname, hsize
  constructor
  · intro i
    rw [Window.getElem?_store (hsize ▸ hlen)]
    split
    · rename_i hi
      have := Span.mem_iff.mp hi.1
      apply hrecords
      rw [Span.length]
      omega
    · rfl
  · intro engine' data' hput
    apply hwait.bind
    rw [hchoose]
    apply RankM.Runs.bind (RankM.Runs.pure b _ data)
    apply RankM.Runs.bind (RankM.Runs.insist hfill _ data)
    apply hput.bind (RankM.Runs.pure spare' _ _)

end Engine

/-- A block is stored while nothing else touches its records. The buffer for it is the one under the
outgoing tag or else the spare one, and is then under the outgoing tag. -/
theorem runs_emit {out : Tag} {cur : Span} {sum : BlockSum} {spare : Option Buffer} {b : Buffer}
    (hw : e.window = w) (hb : (e.slot out).or spare = some b)
    (hcur : w.check cur b.records.size = .ok ()) (hsum : cur.length ≤ sum.size)
    (hapart : ∀ tag u, tag ≠ out → e.flight tag = some u → u.Apart w cur.start cur.stop) :
  ∃ b' spare' e' data',
    RankM.Runs Tracked.Safe (Bare.emit out cur sum spare) e data (.ok spare') e' data' ∧
    SameOff (· = out) e e' ∧ e'.flight out = some (.put cur b') ∧ e'.slot out = some b' ∧
    b'.name = b.name ∧ b'.records.size = b.records.size ∧ data'.size = data.size ∧
    ∀ i, data'[i]? =
      if i ∈ cur ∧ i < data.size then sum[i - cur.start]?.map Lanes.demote else data[i]?
  := by
  subst hw
  obtain ⟨⟨hpos, hroom⟩, -, -⟩ := Window.check_eq_ok_iff.mp hcur
  obtain ⟨b', spare', hname, hsize, hstored, hruns⟩ :=
    runs_emit_of_wait (w := e.window) (Tracked.runs_wait e out data) hb hroom hsum
  have hcheck : (Transfer.put cur b').check (e.freed out).window = .ok () := by
    rw [Tracked.window_freed, Transfer.check, hsize, hcur]
  have hslot : (e.freed out).slot out = none := by
    rw [Tracked.slot_freed, if_pos rfl]
  have hcompatible : ∀ tag u, (e.freed out).flight tag = some u →
      Transfer.Compatible (e.freed out).window u (.put cur b') := by
    intro tag u hu
    rw [Tracked.flight_freed] at hu
    split at hu
    · cases hu
    · rename_i hne
      rw [Tracked.window_freed]
      apply Transfer.compatible_put
      apply hapart tag u (Ne.symm hne) hu
  have hfreed : SameOff (· = out) e (e.freed out) := SameOff.freed rfl
  have hbegun : SameOff (· = out) (e.freed out) ((e.freed out).begun out (.put cur b') data) :=
    SameOff.begun rfl
  use b', spare', (e.freed out).begun out (.put cur b') data, e.window.store data cur b'.records
  constructor
  · apply hruns (Tracked.runs_submit hslot hcheck hcompatible data)
  constructor
  · apply hfreed.trans hbegun
  constructor
  · rw [Tracked.flight_begun, if_pos rfl]
  constructor
  · rw [Tracked.slot_begun, if_pos rfl]
    rfl
  constructor
  · apply hname
  constructor
  · apply hsize
  constructor
  · apply Window.size_store _ _ _ _
  · apply hstored

/-! ### The loop -/

/-- What holds between two blocks, when `blocks` are still to be reduced: the first of them is being
fetched for every array, everything else in flight is a store of records before it, and there is a
buffer for the outgoing blocks. -/
structure Ready (as : List (Fin maxArray)) (out : Tag) (room : Nat) (blocks : List Span)
    (spare : Option Buffer) (e : Tracked) (data : Data) : Prop where
  fetching : ∀ a ∈ as, e.Fetching data room a blocks.head?
  others : ∀ tag u, ¬ IsInput as tag → e.flight tag = some u →
    ∀ s ∈ blocks, ∀ q, u.Apart e.window s.start q
  outgoing : ∃ b, (e.slot out).or spare = some b ∧ ∀ s ∈ blocks, s.length ≤ b.records.size

variable {nArray : Nat} {out : Tag} {blocks : List Span} {spare : Option Buffer}

/-- The loop is ready once the first block is being fetched for every array, if nothing was in
flight before. -/
theorem Ready.of_primed {scratch : Scratch} {first : Span} (hsame : SameOff (IsInput as) e e₁)
    (hfetching : ∀ a ∈ as, e₁.Fetching data scratch.blockLen a (some first))
    (hout : ¬ IsInput as out) (hflight : ∀ tag, e.flight tag = none)
    (hroom : ∀ b, e.slot out = some b → ∀ s ∈ first :: blocks, s.length ≤ b.records.size)
    (hlen : ∀ s ∈ first :: blocks, s.length ≤ scratch.blockLen) :
  Ready as out scratch.blockLen (first :: blocks) (some scratch.outBuffer) e₁ data
  where
  fetching := hfetching
  others tag u htag hu := by
    rw [hsame.flight_eq tag htag, hflight tag] at hu
    cases hu
  outgoing := by
    rw [hsame.slot_eq out hout]
    cases hb : e.slot out with
    | none =>
      use scratch.outBuffer, rfl
      rw [scratch.size_outBuffer]
      apply hlen
    | some b => exact ⟨b, rfl, hroom b hb⟩

/-- Before a block, nothing in flight writes at or behind its start. -/
theorem Ready.writesBefore {cur : Span} (h : Ready as out room (cur :: blocks) spare e data) :
  e.WritesBefore cur.start
  := by
  intro tag u hu i hi
  by_cases htag : IsInput as tag
  · obtain ⟨a, ha, rfl⟩ := htag
    exact absurd hi ((h.fetching a ha).not_mem_writes hu i)
  · apply (h.others tag u htag hu cur List.mem_cons_self 0).writes_lt i hi

/-- Once a block has been consumed, nothing in flight gets in the way of storing it. -/
theorem Ready.apart {cur : Span} (h : Ready as out room (cur :: blocks) spare e data)
    (hsame : SameOff (IsInput as) e e₁)
    (hfetching : ∀ a ∈ as, e₁.Fetching data room a blocks.head?)
    (hbehind : ∀ s ∈ blocks, cur.stop ≤ s.start) {tag : Tag} {u : Transfer}
    (hu : e₁.flight tag = some u) :
  u.Apart e.window cur.start cur.stop
  := by
  by_cases htag : IsInput as tag
  · obtain ⟨a, ha, rfl⟩ := htag
    have hfetching := hfetching a ha
    cases hhead : blocks.head? with
    | none =>
      rw [hhead] at hfetching
      rw [hfetching.2] at hu
      cases hu
    | some s =>
      rw [hhead] at hfetching
      obtain ⟨buffer, held, hflight, -⟩ := hfetching
      rw [hflight] at hu
      cases hu
      apply Transfer.apart_get (hbehind s (List.mem_of_mem_head? hhead)) _
  · rw [hsame.flight_eq tag htag] at hu
    apply h.others tag u htag hu cur List.mem_cons_self _

/-- Once a block has been consumed and is being stored, the loop is ready for the others. -/
theorem Ready.advance {cur : Span} {b b' : Buffer} {spare' : Option Buffer}
    (h : Ready as out room (cur :: blocks) spare e data) (hout : ¬ IsInput as out)
    (hbehind : ∀ s ∈ blocks, cur.stop ≤ s.start)
    (hsame₁ : SameOff (IsInput as) e e₁)
    (hfetching₁ : ∀ a ∈ as, e₁.Fetching data room a blocks.head?)
    (hsame' : SameOff (· = out) e₁ e')
    (hflight' : e'.flight out = some (.put cur b)) (hslot' : e'.slot out = some b')
    (hb' : ∀ s ∈ blocks, s.length ≤ b'.records.size)
    (hdata : AgreeOn (· ∉ cur) data' data) :
  Ready as out room blocks spare' e' data'
  where
  fetching a ha := by
    apply (hfetching₁ a ha).congr hsame'
    · intro hao
      apply hout ⟨a, ha, hao.symm⟩
    · intro s hs
      apply Window.block_congr
      apply hdata.mono
      intro i hi
      have := e₁.window.le_address a s.start
      have := hbehind s (List.mem_of_mem_head? hs)
      simp only [Span.mem_iff] at hi ⊢
      omega
  others tag u htag hu s hs q := by
    rw [hsame'.window_eq, hsame₁.window_eq]
    rcases eq_or_ne tag out with rfl | hto
    · rw [hflight'] at hu
      cases hu
      apply Transfer.apart_put (hbehind s hs) q
    · rw [hsame'.flight_eq tag hto, hsame₁.flight_eq tag htag] at hu
      apply h.others tag u htag hu s (List.mem_cons_of_mem cur hs) q
  outgoing := by
    use b', by rw [hslot', Option.some_or]

/-- The records of a block hold their sums once the rounded running sum has been stored. -/
theorem reduced_of_sum {cur : Span} {sum sum' : BlockSum} (hn₀ : 0 < nArray)
    (hn : nArray ≤ maxArray) (hsum : cur.length ≤ sum.size)
    (habsorbed : Absorbed w data cur (arrays nArray) sum sum') (hsize : data'.size = data.size)
    (hdata : ∀ i, data'[i]? =
      if i ∈ cur ∧ i < data.size then sum'[i - cur.start]?.map Lanes.demote else data[i]?) :
  Reduced w.stride nArray (· ∈ cur) data data'
  where
  size_eq := hsize
  summed i hi hlt := by
    have hmem := Span.mem_iff.mp hi
    have hj : i - cur.start < cur.length := by
      simp only [Span.length]
      omega
    have hstart : cur.start + (i - cur.start) = i := by omega
    rw [hdata, if_pos ⟨hi, hlt⟩, habsorbed.getElem?_eq _ hj, hstart,
      Array.getElem?_eq_getElem (by omega),
      Option.map_some, Option.map_some, demote_absorbRecords hn₀ hn, Window.address_zero]
    rw [← combined_eq_replicaSum]
    rfl
  kept i hi := by
    rw [hdata, if_neg]
    rintro ⟨hmem, -⟩
    apply hi hmem

/-- One block is reduced, and then the loop is ready for the others. -/
theorem runs_block {cur : Span} {sum : BlockSum} {stop : Nat} (hw : e.window = w)
    (hfits : w.Fits data.size) (hn₀ : 0 < nArray) (hn : nArray ≤ w.nArray)
    (hout : ¬ IsInput (arrays nArray) out)
    (hcur : w.check cur room = .ok ())
    (hhead : ∀ s, blocks.head? = some s → w.check s room = .ok ())
    (htiles : Span.Tiles cur.stop stop blocks) (hsum : room ≤ sum.size)
    (h : Ready (arrays nArray) out room (cur :: blocks) spare e data) :
  ∃ sum' spare' e₁ e' data',
    RankM.Runs Tracked.Safe (Bare.consume cur.length blocks.head? (arrays nArray) sum) e data
      (.ok sum') e₁ data ∧
    RankM.Runs Tracked.Safe (Bare.emit out cur sum' spare) e₁ data (.ok spare') e' data' ∧
    SameOff (fun tag => IsInput (arrays nArray) tag ∨ tag = out) e e' ∧
    Ready (arrays nArray) out room blocks spare' e' data' ∧
    (e'.slot out).map Buffer.shape = ((e.slot out).or spare).map Buffer.shape ∧
    sum'.size = sum.size ∧ Reduced w.stride nArray (· ∈ cur) data data'
  := by
  have hroom := (Window.check_eq_ok_iff.mp hcur).1.2
  have hbehind : ∀ s ∈ blocks, cur.stop ≤ s.start := fun s hs => (htiles.bounds hs).1
  have hnext : ∀ s, blocks.head? = some s → w.check s room = .ok () ∧ cur.stop ≤ s.start :=
    fun s hs => ⟨hhead s hs, hbehind s (List.mem_of_mem_head? hs)⟩
  obtain ⟨sum', e₁, hconsume, hsame₁, hfetching₁, habsorbed⟩ :=
    runs_consume hw hfits hcur hnext h.writesBefore (arrays nArray) (nodup_arrays nArray)
      (fun a ha => Nat.lt_of_lt_of_le (mem_arrays.mp ha) hn) h.fetching hsum
  have hw₁ : e₁.window = w := hsame₁.window_eq.trans hw
  have hsize := habsorbed.size_eq
  have hlen' : cur.length ≤ sum'.size := by omega
  obtain ⟨b, hb, hlen⟩ := h.outgoing
  have hb₁ : (e₁.slot out).or spare = some b := by
    rw [hsame₁.slot_eq out hout, hb]
  have hfit : w.check cur b.records.size = .ok () := by
    rw [Window.check_eq_ok_iff] at hcur ⊢
    exact ⟨⟨hcur.1.1, hlen cur List.mem_cons_self⟩, hcur.2⟩
  have hapart : ∀ tag u, tag ≠ out → e₁.flight tag = some u →
      u.Apart w cur.start cur.stop := by
    intro tag u _ hu
    rw [← hw]
    apply h.apart hsame₁ hfetching₁ hbehind hu
  obtain ⟨b', spare', e', data', hemit, hsame', hflight', hslot', hname, hsize', hdsize, hdata⟩ :=
    runs_emit hw₁ hb₁ hfit hlen' hapart
  have hreduced : Reduced w.stride nArray (· ∈ cur) data data' :=
    reduced_of_sum hn₀ (Nat.le_trans hn hfits.nArray_le) (by omega) habsorbed hdsize hdata
  use sum', spare', e₁, e', data', hconsume, hemit
  constructor
  · apply SameOff.trans (hsame₁.mono _) (hsame'.mono _)
    · intro tag htag
      exact .inl htag
    · intro tag htag
      exact .inr htag
  constructor
  · apply h.advance hout hbehind hsame₁ hfetching₁ hsame' hflight' hslot'
    · intro s hs
      rw [hsize']
      apply hlen s (List.mem_cons_of_mem cur hs)
    · exact ⟨hdsize, hreduced.kept⟩
  constructor
  · rw [hslot', hb, Option.map_some, Option.map_some, Buffer.shape, Buffer.shape, hname, hsize']
  exact ⟨hsize, hreduced⟩

/-- Counting a block and then those after it is counting all of them. -/
theorem addBlock_add {report : RankReport} {cur : Span} {rest : List Span} {stop : Nat}
    (hcur : cur.start ≤ cur.stop) (hstop : cur.stop ≤ stop) :
  RankReport.mk (report.addBlock cur.length).range
      ((report.addBlock cur.length).nBlock + rest.length)
      ((report.addBlock cur.length).nRecord + (stop - cur.stop))
    = ⟨report.range, report.nBlock + (cur :: rest).length, report.nRecord + (stop - cur.start)⟩
  := by
  simp only [RankReport.addBlock, List.length_cons, Span.length, RankReport.mk.injEq, true_and]
  omega

/-- The loop reduces all of its blocks and counts them. -/
theorem runs_reduceBlocks {start stop : Nat} (hfits : w.Fits data.size) (hn₀ : 0 < nArray)
    (hn : nArray ≤ w.nArray) (hout : ¬ IsInput (arrays nArray) out)
    (blocks : List Span) (hcheck : ∀ s ∈ blocks, w.check s room = .ok ())
    (htiles : Span.Tiles start stop blocks) {sum : BlockSum} (hsum : room ≤ sum.size)
    (report : RankReport) (hw : e.window = w)
    (h : Ready (arrays nArray) out room blocks spare e data) :
  ∃ e' data',
    RankM.Runs Tracked.Safe (Bare.reduceBlocks (arrays nArray) out blocks sum spare report) e data
      (.ok ⟨report.range, report.nBlock + blocks.length, report.nRecord + (stop - start)⟩)
      e' data' ∧
    SameOff (fun tag => IsInput (arrays nArray) tag ∨ tag = out) e e' ∧
    (∀ a ∈ arrays nArray, e'.Fetching data' room a none) ∧
    (e'.slot out).map Buffer.shape =
      (if blocks = [] then e.slot out else (e.slot out).or spare).map Buffer.shape ∧
    Reduced w.stride nArray (fun i => start ≤ i ∧ i < stop) data data'
  := by
  induction blocks generalizing start e data sum spare report with
  | nil =>
    cases htiles
    use e, data
    constructor
    · rw [List.length_nil, Nat.sub_self]
      exact .pure report e data
    constructor
    · exact .refl _ e
    constructor
    · apply h.fetching
    constructor
    · rw [if_pos rfl]
    · apply Reduced.of_forall_not
      omega
  | cons cur rest ih =>
    cases htiles with
    | cons hcur htiles =>
    obtain ⟨sum', spare', e₁, e₂, data₂, hconsume, hemit, hsame, hready, hname, hsize, hreduced⟩ :=
      runs_block hw hfits hn₀ hn hout (hcheck cur List.mem_cons_self)
        (fun s hs => hcheck s (List.mem_cons_of_mem cur (List.mem_of_mem_head? hs))) htiles hsum h
    obtain ⟨e', data', hloop, hsame', hfree, hname', hreduced'⟩ :=
      ih (hreduced.size_eq ▸ hfits) (fun s hs => hcheck s (List.mem_cons_of_mem cur hs)) htiles
        (hsize ▸ hsum) (report.addBlock cur.length) (hsame.window_eq.trans hw) hready
    have hstop := htiles.le
    use e', data'
    constructor
    · rw [addBlock_add hcur hstop] at hloop
      apply hconsume.bind (hemit.bind hloop)
    constructor
    · apply hsame.trans hsame'
    constructor
    · apply hfree
    constructor
    · obtain ⟨b, hb, -⟩ := h.outgoing
      obtain ⟨b₂, hb₂, -⟩ : ∃ b₂, e₂.slot out = some b₂ ∧ b₂.shape = b.shape := by
        rw [hb, Option.map_some] at hname
        exact Option.map_eq_some_iff.mp hname
      rw [hname', hb₂, Option.some_or, ite_self, ← hb₂, hname, if_neg (List.cons_ne_nil _ _)]
    · apply hreduced.cons hreduced' hn₀ hcur hstop

/-- Whatever blocks there are, all of them are reduced. -/
theorem runs_reduceAll {scratch : Scratch} {start stop : Nat} (hw : e.window = w)
    (hfits : w.Fits data.size) (hn₀ : 0 < nArray) (hn : nArray ≤ w.nArray)
    (hout : ¬ IsInput (arrays nArray) out)
    (blocks : List Span) (hcheck : ∀ s ∈ blocks, w.check s scratch.blockLen = .ok ())
    (htiles : Span.Tiles start stop blocks)
    (hslot : ∀ a ∈ arrays nArray, e.slot (.input a) = none)
    (hflight : ∀ tag, e.flight tag = none)
    (hroom : ∀ b, e.slot out = some b → ∀ s ∈ blocks, s.length ≤ b.records.size)
    (report : RankReport) :
  ∃ e' data',
    RankM.Runs Tracked.Safe (Bare.reduceAll (arrays nArray) out blocks scratch report) e data
      (.ok ⟨report.range, report.nBlock + blocks.length, report.nRecord + (stop - start)⟩)
      e' data' ∧
    SameOff (fun tag => IsInput (arrays nArray) tag ∨ tag = out) e e' ∧
    (∀ a ∈ arrays nArray, e'.slot (.input a) = none) ∧
    (e'.slot out).map Buffer.shape =
      (if blocks = [] then e.slot out else (e.slot out).or scratch.outBuffer).map Buffer.shape ∧
    Reduced w.stride nArray (fun i => start ≤ i ∧ i < stop) data data'
  := by
  cases blocks with
  | nil =>
    cases htiles
    use e, data
    constructor
    · rw [List.length_nil, Nat.sub_self]
      exact .pure report e data
    constructor
    · exact .refl _ e
    constructor
    · apply hslot
    constructor
    · rw [if_pos rfl]
    · apply Reduced.of_forall_not
      omega
  | cons first rest =>
    have hwrites : e.WritesBefore first.start := .of_idle hflight _
    obtain ⟨e₁, hprime, hsame₁, hfetching₁⟩ :=
      runs_prime hw hfits (hcheck first List.mem_cons_self) hwrites (arrays nArray)
        (nodup_arrays nArray) (fun a ha => Nat.lt_of_lt_of_le (mem_arrays.mp ha) hn)
        (fun a ha => ⟨hslot a ha, hflight _⟩)
    have hready := Ready.of_primed hsame₁ hfetching₁ hout hflight hroom fun s hs =>
      (Window.check_eq_ok_iff.mp (hcheck s hs)).1.2
    obtain ⟨e', data', hloop, hsame', hfree, hname, hreduced⟩ :=
      runs_reduceBlocks hfits hn₀ hn hout (first :: rest) hcheck htiles scratch.sum_size report
        (hsame₁.window_eq.trans hw) hready
    use e', data'
    constructor
    · apply hprime.bind hloop
    constructor
    · apply (hsame₁.mono fun _ => .inl).trans hsame'
    constructor
    · exact fun a ha => (hfree a ha).1
    constructor
    · rw [hname, hsame₁.slot_eq out hout]
    · apply hreduced

end Reducer

/-! ### The reducer -/

/-- The report of a rank that has reduced all records of its range, in blocks of `blockLen` of which
the last one may be shorter. -/
def RankReport.complete (range : Span) (blockLen : Nat) : RankReport :=
  ⟨range, (range.length + (blockLen - 1)) / blockLen, range.length⟩

/-- A rank has reduced all records of an empty range before it begins. -/
theorem RankReport.complete_of_isEmpty {range : Span} {blockLen : Nat} (hb : 0 < blockLen)
    (h : range.isEmpty = true) :
  complete range blockLen = .empty range
  := by
  rw [complete, empty, Span.isEmpty_iff.mp h, Nat.zero_add]
  rw [Nat.div_eq_of_lt (Nat.sub_lt hb Nat.one_pos)]

/-- Counting the blocks of a range, and the records from its start to its end, gives the report of a
rank that has reduced all of them. -/
theorem RankReport.mk_blocks_eq_complete (range : Span) {blockLen : Nat} (h : 0 < blockLen) :
  RankReport.mk (empty range).range ((empty range).nBlock + (range.blocks blockLen h).toList.length)
      ((empty range).nRecord + (max range.start range.stop - range.start))
    = complete range blockLen
  := by
  have hlen : max range.start range.stop - range.start = range.length := by
    rw [Span.length]
    omega
  rw [empty, complete, Span.length_blocks, hlen, Nat.zero_add, Nat.zero_add]

open Reducer

variable {w : Window} {e : Tracked} {data : Data} {nArray : Nat} {range : Span}

/-- The tag of the outgoing blocks is none of the tags of the arrays. -/
theorem not_isInput_output (h : nArray < maxTags) :
  ¬ IsInput (arrays nArray) (.output ⟨nArray, h⟩)
  := by
  rintro ⟨a, ha, hout⟩
  have hval : nArray = a.val := by
    simpa [Tag.output, Tag.input, Fin.ext_iff] using hout
  have := mem_arrays.mp ha
  omega

/-- The tags that the reducer uses are those up to its outgoing one. -/
theorem isInput_or_output_iff (htags : nArray < maxTags) {tag : Tag} :
  IsInput (arrays nArray) tag ∨ tag = .output ⟨nArray, htags⟩ ↔ tag.index.val ≤ nArray
  := by
  constructor
  · rintro (⟨a, ha, rfl⟩ | rfl)
    · exact Nat.le_of_lt (mem_arrays.mp ha)
    · exact Nat.le_refl nArray
  · obtain ⟨i⟩ := tag
    intro hi
    rcases Nat.lt_or_eq_of_le hi with hlt | heq
    · left
      have hmax : i.val < maxArray := Nat.lt_of_lt_of_le hlt (Nat.le_of_lt_succ htags)
      exact ⟨⟨i.val, hmax⟩, mem_arrays.mpr hlt, rfl⟩
    · right
      apply congrArg Tag.mk (Fin.ext heq)

/-- The blocks of a range in a window can be transferred through it. -/
theorem check_blocks (scratch : Scratch) (hrange : ∀ i ∈ range, i ∈ w.owned) {s : Span}
    (hs : s ∈ (range.blocks scratch.blockLen scratch.isBlockLen.1).toList) :
  w.check s scratch.blockLen = .ok ()
  := by
  obtain ⟨hpos, hlen⟩ := Blocks.length_of_mem_toList hs
  obtain ⟨hstart, -, hstop⟩ := Span.blocks_tiles.bounds hs
  have hne : range.start < range.stop := by
    rw [Span.length] at hpos
    omega
  have hfirst := Span.mem_iff.mp (hrange range.start (Span.mem_iff.mpr ⟨Nat.le_refl _, hne⟩))
  have hlast := Span.mem_iff.mp (hrange (range.stop - 1) (Span.mem_iff.mpr (by omega)))
  rw [Window.check_eq_ok_iff]
  constructor
  · exact ⟨hpos, hlen⟩
  · omega

/-- The reducer replaces the records of its range by their sums and reports its blocks. It makes
only safe calls, leaves the tags of the arrays free and touches no other tag than these and the one
of the outgoing blocks. -/
theorem runs_reduceRank (scratch : Scratch) (hw : e.window = w) (hfits : w.Fits data.size)
    (h₂ : 2 ≤ nArray) (hn : nArray ≤ w.nArray) (htags : nArray < maxTags)
    (hrange : ∀ i ∈ range, i ∈ w.owned)
    (hslot : ∀ a ∈ arrays nArray, e.slot (.input a) = none) (hflight : ∀ tag, e.flight tag = none)
    (hroom : ∀ b, e.slot (.output ⟨nArray, htags⟩) = some b →
      ∀ s ∈ (range.blocks scratch.blockLen scratch.isBlockLen.1).toList,
        s.length ≤ b.records.size) :
  ∃ e' data',
    RankM.Runs Tracked.Safe (reduceRank range nArray scratch) e data
      (.ok (.complete range scratch.blockLen)) e' data' ∧
    Tracked.SameOff (fun tag => IsInput (arrays nArray) tag ∨ tag = .output ⟨nArray, htags⟩) e e' ∧
    (∀ a ∈ arrays nArray, e'.slot (.input a) = none) ∧
    (e'.slot (.output ⟨nArray, htags⟩)).map Buffer.shape =
      (if range.isEmpty then e.slot (.output ⟨nArray, htags⟩)
        else (e.slot (.output ⟨nArray, htags⟩)).or scratch.outBuffer).map Buffer.shape ∧
    Reduced w.stride nArray (· ∈ range) data data'
  := by
  obtain ⟨e', data', hruns, hsame, hfree, hname, hreduced⟩ :=
    runs_reduceAll hw hfits (Nat.lt_of_lt_of_le Nat.two_pos h₂) hn (not_isInput_output htags)
      (range.blocks scratch.blockLen scratch.isBlockLen.1).toList
      (fun s hs => check_blocks scratch hrange hs) Span.blocks_tiles hslot hflight hroom
      (.empty range)
  simp only [Span.blocks_eq_nil_iff] at hname
  rw [RankReport.mk_blocks_eq_complete] at hruns
  use e', data'
  constructor
  · rw [reduceRank_eq_bare range h₂ (Nat.le_of_lt_succ htags)]
    apply hruns
  constructor
  · apply hsame
  constructor
  · apply hfree
  constructor
  · apply hname
  · apply hreduced.congr
    intro i
    rw [Span.mem_iff]
    omega

/-- A rank reduces its range with an engine that has nothing in flight, and nothing is in flight
afterwards. -/
theorem Rank.runs_session (scratch : Scratch) (hfits : w.Fits data.size) (h₂ : 2 ≤ nArray)
    (hn : nArray ≤ w.nArray) (hrange : ∀ i ∈ range, i ∈ w.owned) :
  ∃ data',
    RankM.Runs Tracked.Safe (Rank.session range nArray scratch) (.new w) data
      (.ok (.complete range scratch.blockLen)) (.new w) data' ∧
    Reduced w.stride nArray (· ∈ range) data data'
  := by
  have htags : nArray < maxTags := Nat.lt_succ_of_le (Nat.le_trans hn hfits.nArray_le)
  have hslot : ∀ tag, (Tracked.new w).slot tag = none := fun tag => TagSlots.get?_empty tag
  have hflight : ∀ tag, (Tracked.new w).flight tag = none := fun tag => TagSlots.get?_empty tag
  obtain ⟨e', data', hruns, hsame, -, -, hreduced⟩ :=
    runs_reduceRank (e := .new w) scratch rfl hfits h₂ hn htags hrange (fun a _ => hslot (.input a))
      hflight (by simp [hslot])
  use data'
  constructor
  · apply hruns.bind
    have hwindow : e'.window = w := hsame.window_eq
    rw [← hwindow]
    apply (Tracked.runs_finish e' data').bind
    rw [hwindow]
    exact .pure _ _ _
  · apply hreduced

end ReplicaSum
