import ReplicaSum.Proofs.Calls
import Mathlib.Order.Fin.Basic

/-!
# Where the buffers of the reducer are

A `Point` is a place in the program of the reducer at which a call is about to be made, or at which
the reducer has ended. It says what the rank has at hand there: the rest of its work, its running
sum, its slots, and the buffer that it has taken out of a slot or got back from the engine. The
calls lead from point to point, and at each of them `Point.program` is what is left to do.

At every point, each buffer of a rank is in exactly one of three places: in its own slot, in the
hand of the rank, or in flight under its own tag. This is `Tidy`, which every step keeps. -/

namespace ReplicaSum

/-- A program that begins with a wait goes on with the buffer that it has waited for. -/
theorem RankM.exists_wait_bind {α : Type} (tag : Tag) (f : Option Buffer → RankM α) :
  ∃ next, (RankM.wait tag >>= f).run = .call (.wait tag) next ∧
    ∀ buffer, next (.ok buffer) = (f buffer).run
  := ⟨_, rfl, fun _ => rfl⟩

namespace Reducer

/-! ### Points of the program -/

/-- What a rank has at hand while it works on a block. -/
structure Stage where
  /-- The block. -/
  cur : Span
  /-- The blocks behind it. -/
  rest : List Span
  sum : BlockSum
  report : RankReport
  slots : Slots

/-- Where a rank is that is about to make a call or has ended. -/
inductive Point where
  /-- The first block is about to be asked for, of array `a` and then of those in `todo`. -/
  | priming (a : Fin maxArray) (todo : List (Fin maxArray)) (s : Stage)
  /-- The block is about to be collected, of the arrays in `todo`, and then to be stored. -/
  | collecting (todo : List (Fin maxArray)) (s : Stage)
  /-- The buffer of array `a` has come back, and the next block is about to be asked for. -/
  | refilling (a : Fin maxArray) (next : Span) (buffer : Buffer) (todo : List (Fin maxArray))
    (s : Stage)
  /-- The buffer with the rounded sum is about to be stored. -/
  | storing (buffer : Buffer) (s : Stage)
  | ended (report : RankReport) (slots : Slots)

/-- What is left to do when the block has been collected of all arrays but those in `todo`. -/
def Stage.collect (arrays : List (Fin maxArray)) (out : Tag) (s : Stage)
    (todo : List (Fin maxArray)) : RankM RankReport := do
  let (sum, slots) ← consume s.cur.length s.rest.head? todo s.sum s.slots
  let slots ← emit out s.cur sum slots
  reduceBlocks arrays out s.rest sum slots (s.report.addBlock s.cur.length)

namespace Point

/-- What is left to do at a point. -/
def program (arrays : List (Fin maxArray)) (out : Tag) : Point → RankM RankReport
  | .priming a todo s => do
    let slots ← prime s.cur (a :: todo) s.slots
    reduceBlocks arrays out (s.cur :: s.rest) s.sum slots s.report
  | .collecting todo s => s.collect arrays out todo
  | .refilling a next buffer todo s => do
    RankM.beginGet (.input a) a next buffer
    s.collect arrays out todo
  | .storing buffer s => do
    RankM.beginPut out s.cur buffer
    reduceBlocks arrays out s.rest s.sum s.slots (s.report.addBlock s.cur.length)
  | .ended report _ => return report

/-- The point at which the first block has been asked for, except of the arrays in `todo`. -/
def primed (arrays : List (Fin maxArray)) (s : Stage) : List (Fin maxArray) → Point
  | [] => .collecting arrays s
  | a :: todo => .priming a todo s

/-- The point at which the buffer of array `a` has come back and its block is in the sum. -/
def turn (a : Fin maxArray) (buffer : Buffer) (todo : List (Fin maxArray)) (s : Stage) : Point :=
  match s.rest with
  | [] => .collecting todo { s with slots := s.slots.put a buffer }
  | next :: _ => .refilling a next buffer todo s

/-- The point at which certain blocks are left, the first of which has been asked for. -/
def loop (arrays : List (Fin maxArray)) (sum : BlockSum) (slots : Slots) (report : RankReport) :
    List Span → Point
  | [] => .ended report slots
  | cur :: rest => .collecting arrays ⟨cur, rest, sum, report, slots⟩

/-- The point at which certain blocks are left, none of which has been asked for. -/
def start (arrays : List (Fin maxArray)) (sum : BlockSum) (slots : Slots) (report : RankReport) :
    List Span → Point
  | [] => .ended report slots
  | cur :: rest => primed arrays ⟨cur, rest, sum, report, slots⟩ arrays

variable {arrays todo : List (Fin maxArray)} {out : Tag} {a : Fin maxArray} {s : Stage}

/-- A call that is made at a point, a reply to it, and the point to which it leads. -/
inductive Step (arrays : List (Fin maxArray)) (out : Tag) :
    Point → (request : Call) → request.Reply → Point → Prop where
  | first {a : Fin maxArray} {todo : List (Fin maxArray)} {s : Stage} {buffer : Buffer}
      (hslot : (s.slots.take a).1 = some buffer) :
    Step arrays out (.priming a todo s) (.submit (.input a) (.get a s.cur buffer)) (.ok ())
      (primed arrays { s with slots := (s.slots.take a).2 } todo)
  | collect {a : Fin maxArray} {todo : List (Fin maxArray)} {s : Stage} {buffer : Buffer}
      {block : Array Record} {sum : BlockSum} (hblock : buffer.front s.cur.length = .ok block)
      (hsum : absorb a block s.sum = .ok sum) :
    Step arrays out (.collecting (a :: todo) s) (.wait (.input a)) (.ok (some buffer))
      (turn a buffer todo { s with sum })
  | next {a : Fin maxArray} {next : Span} {buffer : Buffer} {todo : List (Fin maxArray)}
      {s : Stage} :
    Step arrays out (.refilling a next buffer todo s) (.submit (.input a) (.get a next buffer))
      (.ok ()) (.collecting todo s)
  | round {s : Stage} {returned spare : Option Buffer} {buffer filled : Buffer}
      (hchoose : chooseOut returned s.slots.out = (some buffer, spare))
      (hfill : buffer.fill s.sum s.cur.length = .ok filled) :
    Step arrays out (.collecting [] s) (.wait out) (.ok returned)
      (.storing filled { s with slots := { s.slots with out := spare } })
  | store {buffer : Buffer} {s : Stage} :
    Step arrays out (.storing buffer s) (.submit out (.put s.cur buffer)) (.ok ())
      (loop arrays s.sum s.slots (s.report.addBlock s.cur.length) s.rest)

theorem program_primed :
  (primed arrays s todo).program arrays out
    = prime s.cur todo s.slots >>= fun slots =>
      reduceBlocks arrays out (s.cur :: s.rest) s.sum slots s.report
  := by
  cases todo <;> rfl

theorem program_turn (buffer : Buffer) :
  (turn a buffer todo s).program arrays out
    = refill a s.rest.head? buffer s.slots >>= fun slots =>
      { s with slots }.collect arrays out todo
  := by
  obtain ⟨cur, rest, sum, report, slots⟩ := s
  cases rest with
  | nil => rfl
  | cons next rest => simp [turn, program, refill]

theorem program_loop (sum : BlockSum) (slots : Slots) (report : RankReport) (blocks : List Span) :
  (loop arrays sum slots report blocks).program arrays out
    = reduceBlocks arrays out blocks sum slots report
  := by
  cases blocks <;> rfl

/-- Started with blocks, the reducer is at its first point. -/
theorem program_start (sum : BlockSum) (slots : Slots) (report : RankReport) (blocks : List Span) :
  (start arrays sum slots report blocks).program arrays out
    = reduceAll arrays out blocks sum slots report
  := by
  cases blocks with
  | nil => rfl
  | cons cur rest => apply program_primed

/-- A step makes the call that the program at its point begins with, and goes on with the program at
the point to which it leads. -/
theorem Step.program_eq {p p' : Point} {request : Call} {reply : request.Reply}
    (h : Step arrays out p request reply p') :
  ∃ next, (p.program arrays out).run = .call request next ∧
    next reply = (p'.program arrays out).run
  := by
  cases h with
  | first hslot =>
    rw [program, prime]
    simp only [hslot, RankM.insistHeld, pure_bind, bind_assoc, program_primed]
    exact ⟨_, rfl, rfl⟩
  | collect hblock hsum =>
    rw [program_turn, program, Stage.collect, consume]
    simp only [bind_assoc]
    obtain ⟨next, hcall, hnext⟩ := RankM.exists_wait_bind (.input _) _
    refine ⟨next, hcall, (hnext _).trans ?_⟩
    simp only [RankM.insistPending, hblock, hsum, RankM.insist, pure_bind, Stage.collect]
  | next => exact ⟨_, rfl, rfl⟩
  | round hchoose hfill =>
    rw [program, Stage.collect, consume, pure_bind]
    simp only [emit, bind_assoc]
    obtain ⟨next, hcall, hnext⟩ := RankM.exists_wait_bind out _
    refine ⟨next, hcall, (hnext _).trans ?_⟩
    simp only [hchoose, RankM.insistPending, hfill, RankM.insist, pure_bind, program]
  | store =>
    rw [program_loop]
    exact ⟨_, rfl, rfl⟩

/-! ### Places -/

/-- Where a buffer of a rank may be. -/
inductive Place where
  /-- In its own slot. -/
  | slot
  /-- In the hand of the rank. -/
  | hand
  /-- In flight under its own tag. -/
  | flight

/-- A buffer of a given name, with room for `room` records, is in a given place, and there is none
in the others. -/
def Lies (name : BufferName) (room : Nat) (place : Place) (slot hand flight : Option Buffer) :
    Prop :=
  match place with
  | .slot =>
    (∃ b, slot = some b ∧ b.name = name ∧ b.records.size = room) ∧ hand = none ∧ flight = none
  | .hand =>
    slot = none ∧ (∃ b, hand = some b ∧ b.name = name ∧ b.records.size = room) ∧ flight = none
  | .flight =>
    slot = none ∧ hand = none ∧ ∃ b, flight = some b ∧ b.name = name ∧ b.records.size = room

/-- The slots of a rank. -/
def slots : Point → Slots
  | .priming _ _ s => s.slots
  | .collecting _ s => s.slots
  | .refilling _ _ _ _ s => s.slots
  | .storing _ s => s.slots
  | .ended _ slots => slots

/-- The buffer in the hand of a rank. -/
def carried : Point → Option Buffer
  | .refilling _ _ buffer _ _ => some buffer
  | .storing buffer _ => some buffer
  | _ => none

/-- The buffer in the hand of a rank, if it has a given name. -/
def hand (p : Point) (name : BufferName) : Option Buffer :=
  p.carried.filter fun b => b.name = name

/-- The place of the buffer of an array. -/
def place : Point → Fin maxArray → Place
  | .priming a todo _, b => if b ∈ a :: todo then .slot else .flight
  | .collecting todo s, b => if b ∈ todo ∨ s.rest ≠ [] then .flight else .slot
  | .refilling a _ _ _ _, b => if b = a then .hand else .flight
  | .storing _ s, _ => if s.rest ≠ [] then .flight else .slot
  | .ended _ _, _ => .slot

/-- The place of the buffer for the outgoing blocks: it leaves its slot when the first block is
stored, and never comes back there. -/
def outPlace : Point → Place
  | .storing _ _ => .hand
  | p => if p.slots.out.isSome then .slot else .flight

end Point

/-- At a point, with the buffers in `parked` in flight, each buffer of a rank is in the one place
where it belongs; the slots of the other arrays are empty, and under the other tags the same buffers
are in flight as in `parked₀`. -/
structure Tidy (arrays : List (Fin maxArray)) (out : Tag) (room : Nat) (parked₀ : TagSlots Buffer)
    (p : Point) (parked : TagSlots Buffer) : Prop where
  staged : ∀ a ∈ arrays, Point.Lies (.staged a) room (p.place a) (p.slots.get a)
    (p.hand (.staged a)) (parked.get? (.input a))
  outgoing : Point.Lies .out room p.outPlace p.slots.out (p.hand .out) (parked.get? out)
  vacant : ∀ a, a ∉ arrays → p.slots.get a = none
  others : ∀ tag, ¬ IsInput arrays tag → tag ≠ out → parked.get? tag = parked₀.get? tag

variable {arrays todo : List (Fin maxArray)} {out : Tag} {a : Fin maxArray} {s : Stage} {room : Nat}
variable {parked₀ parked : TagSlots Buffer} {p p' : Point}

/-- At most a buffer of a given name is in the hand of the rank. -/
def Point.Carries (p : Point) (name : BufferName) : Prop := ∀ b, p.carried = some b → b.name = name

theorem Point.Carries.hand_eq_none {name name' : BufferName} (h : p.Carries name)
    (hne : name' ≠ name) :
  p.hand name' = none
  := by
  rw [hand, Option.filter_eq_none_iff]
  intro b hb
  rw [h b hb, decide_eq_true_iff]
  apply hne.symm

theorem Point.hand_eq_some {name : BufferName} {b : Buffer} (h : p.carried = some b)
    (hname : b.name = name) :
  p.hand name = some b
  := by
  rw [hand, h, Option.filter_some, if_pos (decide_eq_true hname)]

namespace Tidy

/-- A step that changes only where the buffer of array `a` is leaves the others where they are. -/
theorem of_staged (hinput : ¬ IsInput arrays out) (h : Tidy arrays out room parked₀ p parked)
    (ha : a ∈ arrays) (hhand : p.Carries (.staged a)) (hhand' : p'.Carries (.staged a))
    (hslots : ∀ b, b ≠ a → p'.slots.get b = p.slots.get b)
    (hplace : ∀ b ∈ arrays, b ≠ a → p'.place b = p.place b) (hout : p'.slots.out = p.slots.out)
    (houtPlace : p'.outPlace = p.outPlace) {x : Option Buffer}
    (hnew : Point.Lies (.staged a) room (p'.place a) (p'.slots.get a) (p'.hand (.staged a)) x) :
  Tidy arrays out room parked₀ p' (parked.set (.input a) x)
  where
  staged := by
    intro b hb
    rw [TagSlots.get?_set]
    rcases eq_or_ne b a with rfl | hne
    · rw [if_pos rfl]
      apply hnew
    · have hname : BufferName.staged b ≠ .staged a := by
        simpa [Fin.ext_iff] using hne
      rw [if_neg (by simpa using hne.symm), hslots b hne, hplace b hb hne,
        hhand'.hand_eq_none hname, ← hhand.hand_eq_none hname]
      apply h.staged b hb
  outgoing := by
    have htag : Tag.input a ≠ out := by
      rintro rfl
      exact hinput ⟨a, ha, rfl⟩
    rw [TagSlots.get?_set, if_neg htag, hout, houtPlace, hhand'.hand_eq_none (by simp),
      ← hhand.hand_eq_none (show BufferName.out ≠ .staged a by simp)]
    apply h.outgoing
  vacant b hb := by
    rw [hslots b (ne_of_mem_of_not_mem ha hb).symm]
    apply h.vacant b hb
  others tag htag hne := by
    rw [TagSlots.get?_set, if_neg (fun heq => htag ⟨a, ha, heq.symm⟩)]
    apply h.others tag htag hne

/-- A step that changes only where the buffer for the outgoing blocks is leaves the others where
they are. -/
theorem of_outgoing (hinput : ¬ IsInput arrays out) (h : Tidy arrays out room parked₀ p parked)
    (hhand : p.Carries .out) (hhand' : p'.Carries .out)
    (hslots : ∀ a, p'.slots.get a = p.slots.get a) (hplace : ∀ a ∈ arrays, p'.place a = p.place a)
    {x : Option Buffer} (hnew : Point.Lies .out room p'.outPlace p'.slots.out (p'.hand .out) x) :
  Tidy arrays out room parked₀ p' (parked.set out x)
  where
  staged := by
    intro a ha
    have htag : out ≠ .input a := by
      rintro rfl
      exact hinput ⟨a, ha, rfl⟩
    rw [TagSlots.get?_set, if_neg htag, hslots, hplace a ha, hhand'.hand_eq_none (by simp),
      ← hhand.hand_eq_none (show BufferName.staged a ≠ .out by simp)]
    apply h.staged a ha
  outgoing := by
    rw [TagSlots.get?_set, if_pos rfl]
    apply hnew
  vacant a ha := by
    rw [hslots]
    apply h.vacant a ha
  others tag htag hne := by
    rw [TagSlots.get?_set, if_neg hne.symm]
    apply h.others tag htag hne

end Tidy

/-! ### Steps -/

/-- Blocks that find room in the buffers, and whose transfers the engine accepts. -/
structure Feasible (arrays : List (Fin maxArray)) (room : Nat) (Accepts : Transfer → Prop)
    (blocks : List Span) : Prop where
  length_le : ∀ t ∈ blocks, t.length ≤ room
  accepts : ∀ t ∈ blocks, ∀ b : Buffer, b.records.size = room →
    (∀ a ∈ arrays, Accepts (.get a t b)) ∧ Accepts (.put t b)

/-- The blocks that are left are feasible, and the running sum has room for them. -/
structure Stage.Fits (arrays : List (Fin maxArray)) (room : Nat) (Accepts : Transfer → Prop)
    (s : Stage) : Prop where
  blocks : Feasible arrays room Accepts (s.cur :: s.rest)
  le_size : room ≤ s.sum.size

namespace Point

/-- The work that is left at a point fits, and the arrays that are left are different ones. -/
def Fits (arrays : List (Fin maxArray)) (room : Nat) (Accepts : Transfer → Prop) : Point → Prop
  | .priming a todo s =>
    (a :: todo).Nodup ∧ (∀ b ∈ a :: todo, b ∈ arrays) ∧ s.Fits arrays room Accepts
  | .collecting todo s => todo.Nodup ∧ (∀ b ∈ todo, b ∈ arrays) ∧ s.Fits arrays room Accepts
  | .refilling a next _ todo s =>
    (a :: todo).Nodup ∧ (∀ b ∈ a :: todo, b ∈ arrays) ∧ s.rest.head? = some next ∧
      s.Fits arrays room Accepts
  | .storing _ s => s.Fits arrays room Accepts
  | .ended _ _ => True

variable {σ : Type} {Accepts : Transfer → Prop}
variable {Parks : σ → Data → TagSlots Buffer → Prop} {engine : σ} {data : Data}

theorem carries_of_carried_eq_none (h : p.carried = none) (name : BufferName) :
  p.Carries name
  := by
  intro b hb
  rw [h] at hb
  cases hb

@[simp]
theorem slots_primed :
  (primed arrays s todo).slots = s.slots
  := by
  cases todo <;> rfl

@[simp]
theorem carried_primed :
  (primed arrays s todo).carried = none
  := by
  cases todo <;> rfl

@[simp]
theorem outPlace_primed :
  (primed arrays s todo).outPlace = if s.slots.out.isSome then .slot else .flight
  := by
  cases todo <;> rfl

theorem place_primed {b : Fin maxArray} (hb : b ∈ arrays) :
  (primed arrays s todo).place b = if b ∈ todo then .slot else .flight
  := by
  cases todo with
  | nil => simp [primed, place, hb]
  | cons a todo => rfl

theorem fits_primed (hnodup : arrays.Nodup) (htodo : todo.Nodup) (hmem : ∀ b ∈ todo, b ∈ arrays)
    (hs : s.Fits arrays room Accepts) :
  (primed arrays s todo).Fits arrays room Accepts
  := by
  cases todo with
  | nil => exact ⟨hnodup, fun _ hb => hb, hs⟩
  | cons a todo => exact ⟨htodo, hmem, hs⟩

/-- At a point, the engine keeps the buffers that are in flight, each buffer is where it belongs,
and the work that is left can be done. -/
def Sound (arrays : List (Fin maxArray)) (out : Tag) (room : Nat) (Accepts : Transfer → Prop)
    (Parks : σ → Data → TagSlots Buffer → Prop) (parked₀ : TagSlots Buffer) (p : Point)
    (engine : σ) (data : Data) : Prop :=
  ∃ parked, Parks engine data parked ∧ Tidy arrays out room parked₀ p parked ∧
    p.Fits arrays room Accepts

/-- At the start, nothing is in the hand, and the buffers of the arrays are in their slots. -/
theorem start_eq (arrays : List (Fin maxArray)) (sum : BlockSum) (slots : Slots)
    (report : RankReport) (blocks : List Span) :
  (start arrays sum slots report blocks).slots = slots ∧
    (start arrays sum slots report blocks).carried = none ∧
    (∀ a ∈ arrays, (start arrays sum slots report blocks).place a = .slot) ∧
    (start arrays sum slots report blocks).outPlace = if slots.out.isSome then .slot else .flight
  := by
  cases blocks with
  | nil => exact ⟨rfl, rfl, fun _ _ => rfl, rfl⟩
  | cons cur rest =>
    exact ⟨slots_primed, carried_primed, fun a ha => (place_primed ha).trans (if_pos ha),
      outPlace_primed⟩

/-- At the start, every buffer is in its slot. -/
theorem sound_start {scratch : Scratch} {nArray : Nat} (hp : Parks engine data parked)
    (hfree : ∀ tag, IsInput (Reducer.arrays nArray) tag ∨ tag = out → parked.get? tag = none)
    (report : RankReport) {blocks : List Span}
    (hblocks : Feasible (Reducer.arrays nArray) scratch.blockLen Accepts blocks) :
  Sound (Reducer.arrays nArray) out scratch.blockLen Accepts Parks parked
    (start (Reducer.arrays nArray) scratch.sum (.carve scratch nArray) report blocks) engine data
  := by
  obtain ⟨hslots, hcarried, hplace, houtPlace⟩ :=
    start_eq (Reducer.arrays nArray) scratch.sum (.carve scratch nArray) report blocks
  use parked, hp
  constructor
  · constructor
    · intro a ha
      rw [hplace a ha, hslots, Slots.get_carve (mem_arrays.mp ha), hand, hcarried,
        hfree (.input a) (.inl ⟨a, ha, rfl⟩)]
      exact ⟨⟨_, rfl, rfl, scratch.size_stagedBuffer a⟩, rfl, rfl⟩
    · rw [houtPlace, hslots, hand, hcarried, hfree out (.inr rfl)]
      exact ⟨⟨_, rfl, rfl, scratch.size_outBuffer⟩, rfl, rfl⟩
    · intro a ha
      rw [hslots]
      apply Slots.get_carve_of_not_lt (mt mem_arrays.mpr ha)
    · intro _ _ _
      rfl
  · cases blocks with
    | nil => trivial
    | cons cur rest =>
      apply fits_primed (nodup_arrays nArray) (nodup_arrays nArray) (fun _ ha => ha)
      exact ⟨hblocks, scratch.sum_size⟩

variable [TransferEngine σ]

/-- A call is made at a point, and the engine gives a reply that leads to a point with a given
property. -/
def Advances (arrays : List (Fin maxArray)) (out : Tag) (P : Point → σ → Data → Prop) (p : Point)
    (engine : σ) (data : Data) : Prop :=
  ∃ request reply p' engine' data', p.Step arrays out request reply p' ∧
    TransferEngine.answer request engine data = (reply, engine', data') ∧ P p' engine' data'

/-- The first block of an array is asked for. -/
theorem advances_priming (ho : Obliging σ Accepts Parks) (hinput : ¬ IsInput arrays out)
    (hnodup : arrays.Nodup) (hp : Parks engine data parked)
    (h : Tidy arrays out room parked₀ (.priming a todo s) parked)
    (hfits : (Point.priming a todo s).Fits arrays room Accepts) :
  Advances arrays out (Sound arrays out room Accepts Parks parked₀) (.priming a todo s) engine data
  := by
  obtain ⟨htodo, hmem, hs⟩ := hfits
  have ha := hmem a List.mem_cons_self
  have hlies := h.staged a ha
  rw [place, if_pos List.mem_cons_self] at hlies
  obtain ⟨⟨b, hslot, hname, hsize⟩, -, hfree⟩ := hlies
  obtain ⟨engine', data', hanswer, hp'⟩ :=
    ho.submit hp hfree ((hs.blocks.accepts s.cur List.mem_cons_self b hsize).1 a ha)
  refine ⟨_, _, _, engine', data', .first hslot, hanswer, _, hp', ?_, ?_⟩
  · apply h.of_staged hinput ha (carries_of_carried_eq_none rfl _)
      (carries_of_carried_eq_none carried_primed _)
    · intro b hne
      rw [slots_primed, Slots.get_take, if_neg hne.symm]
      rfl
    · intro b hb hne
      rw [place_primed hb, place]
      simp [hne]
    · rw [slots_primed]
      rfl
    · rw [outPlace_primed]
      rfl
    · rw [place_primed ha, if_neg (List.nodup_cons.mp htodo).1, slots_primed, Slots.get_take,
        if_pos rfl, hand, carried_primed]
      exact ⟨rfl, rfl, b, rfl, hname, hsize⟩
  · apply fits_primed hnodup (List.nodup_cons.mp htodo).2
    · intro b hb
      apply hmem b (List.mem_cons_of_mem a hb)
    · exact ⟨hs.blocks, hs.le_size⟩

/-! When the block of array `a` has been collected, its buffer is in its slot or in the hand. -/

theorem carries_turn {b : Buffer} (hname : b.name = .staged a) :
  (turn a b todo s).Carries (.staged a)
  := by
  rw [turn]
  split
  · apply carries_of_carried_eq_none rfl
  · rintro _ ⟨⟩
    apply hname

theorem get_turn {b : Buffer} {c : Fin maxArray} (hne : c ≠ a) :
  (turn a b todo s).slots.get c = s.slots.get c
  := by
  rw [turn]
  split
  · exact Slots.get_put.trans (if_neg hne.symm)
  · rfl

theorem place_turn {b : Buffer} {c : Fin maxArray} (hne : c ≠ a) :
  (turn a b todo s).place c = if c ∈ todo ∨ s.rest ≠ [] then .flight else .slot
  := by
  rw [turn]
  split
  · rfl
  · rename_i next rest hrest
    rw [hrest, place, if_neg hne, if_pos (.inr (List.cons_ne_nil next rest))]

@[simp]
theorem out_turn {b : Buffer} :
  (turn a b todo s).slots.out = s.slots.out
  := by
  rw [turn]
  split <;> rfl

@[simp]
theorem outPlace_turn {b : Buffer} :
  (turn a b todo s).outPlace = if s.slots.out.isSome then .slot else .flight
  := by
  rw [turn]
  split <;> rfl

theorem lies_turn {b : Buffer} (hslot : s.slots.get a = none) (ha : a ∉ todo)
    (hname : b.name = .staged a) (hsize : b.records.size = room) :
  Lies (.staged a) room ((turn a b todo s).place a) ((turn a b todo s).slots.get a)
    ((turn a b todo s).hand (.staged a)) none
  := by
  rw [turn]
  split
  · rename_i hrest
    have hplace : ¬ (a ∈ todo ∨ s.rest ≠ []) := by
      rw [hrest]
      simpa using ha
    rw [place, if_neg hplace]
    exact ⟨⟨b, Slots.get_put.trans (if_pos rfl), hname, hsize⟩, rfl, rfl⟩
  · rw [place, if_pos rfl]
    exact ⟨hslot, ⟨b, hand_eq_some rfl hname, hname, hsize⟩, rfl⟩

theorem fits_turn {b : Buffer} (htodo : (a :: todo).Nodup) (hmem : ∀ c ∈ a :: todo, c ∈ arrays)
    (hs : s.Fits arrays room Accepts) :
  (turn a b todo s).Fits arrays room Accepts
  := by
  rw [turn]
  split
  · use (List.nodup_cons.mp htodo).2, fun c hc => hmem c (List.mem_cons_of_mem a hc)
    exact ⟨hs.blocks, hs.le_size⟩
  · rename_i hrest
    exact ⟨htodo, hmem, by rw [hrest]; rfl, hs⟩

/-- The block of an array is collected. -/
theorem advances_collecting (ho : Obliging σ Accepts Parks) (hinput : ¬ IsInput arrays out)
    (hp : Parks engine data parked)
    (h : Tidy arrays out room parked₀ (.collecting (a :: todo) s) parked)
    (hfits : (Point.collecting (a :: todo) s).Fits arrays room Accepts) :
  Advances arrays out (Sound arrays out room Accepts Parks parked₀) (.collecting (a :: todo) s)
    engine data
  := by
  obtain ⟨htodo, hmem, hs⟩ := hfits
  have ha := hmem a List.mem_cons_self
  have hlies := h.staged a ha
  rw [place, if_pos (.inl List.mem_cons_self)] at hlies
  obtain ⟨hslot, -, b, hflight, hname, hsize⟩ := hlies
  obtain ⟨reply, engine', data', hanswer, hreply, hp'⟩ := ho.wait hp (.input a)
  rw [hflight] at hreply
  cases hreply with
  | some hsame =>
  rename_i b'
  have hname' := hsame.name_eq.trans hname
  have hsize' := hsame.size_eq.trans hsize
  have hlen : s.cur.length ≤ room := hs.blocks.length_le s.cur List.mem_cons_self
  have hblock : (b'.records.take s.cur.length).size ≤ s.sum.size := by
    have := hs.le_size
    rw [Array.take_eq_extract, Array.size_extract]
    omega
  obtain ⟨sum, hsum, hsumSize, -⟩ := absorb_eq_ok a hblock
  have hnotin := (List.nodup_cons.mp htodo).1
  refine ⟨_, _, _, engine', data', .collect (Buffer.front_eq_ok (hsize'.symm ▸ hlen)) hsum, hanswer,
    _, hp', ?_, ?_⟩
  · apply h.of_staged hinput ha (carries_of_carried_eq_none rfl _) (carries_turn hname')
    · intro c hne
      apply get_turn hne
    · intro c hc hne
      rw [place_turn hne, place]
      simp [hne]
    · apply out_turn
    · apply outPlace_turn
    · apply lies_turn _ hnotin hname' hsize'
      apply hslot
  · apply fits_turn htodo hmem
    exact ⟨hs.blocks, hsumSize.symm ▸ hs.le_size⟩

/-- The next block of an array is asked for. -/
theorem advances_refilling (ho : Obliging σ Accepts Parks) (hinput : ¬ IsInput arrays out)
    (hp : Parks engine data parked) {next : Span} {b : Buffer}
    (h : Tidy arrays out room parked₀ (.refilling a next b todo s) parked)
    (hfits : (Point.refilling a next b todo s).Fits arrays room Accepts) :
  Advances arrays out (Sound arrays out room Accepts Parks parked₀) (.refilling a next b todo s)
    engine data
  := by
  obtain ⟨htodo, hmem, hnext, hs⟩ := hfits
  have ha := hmem a List.mem_cons_self
  have hlies := h.staged a ha
  rw [place, if_pos rfl] at hlies
  obtain ⟨hslot, ⟨_, hhand, hname, hsize⟩, hfree⟩ := hlies
  obtain ⟨hb, -⟩ := Option.filter_eq_some_iff.mp hhand
  cases hb
  have hmemNext := List.mem_cons_of_mem s.cur (List.mem_of_mem_head? hnext)
  obtain ⟨engine', data', hanswer, hp'⟩ :=
    ho.submit hp hfree ((hs.blocks.accepts next hmemNext b hsize).1 a ha)
  have hrest : s.rest ≠ [] := by
    intro hnil
    rw [hnil] at hnext
    cases hnext
  refine ⟨_, _, _, engine', data', .next, hanswer, _, hp', ?_, ?_⟩
  · apply h.of_staged hinput ha _ (carries_of_carried_eq_none rfl _)
    · intro _ _
      rfl
    · intro c hc hne
      rw [place, place, if_pos (.inr hrest), if_neg hne]
    · rfl
    · rfl
    · rw [place, if_pos (.inr hrest)]
      exact ⟨hslot, rfl, b, rfl, hname, hsize⟩
    · rintro _ ⟨⟩
      apply hname
  · exact ⟨(List.nodup_cons.mp htodo).2, fun c hc => hmem c (List.mem_cons_of_mem a hc), hs⟩

/-- Of the slot for the outgoing blocks and the outgoing tag, one has a buffer, and the reducer
takes that one. -/
theorem chooseOut_of_lies {slot hand flight reply : Option Buffer}
    (h : Lies .out room (if slot.isSome then .slot else .flight) slot hand flight)
    (hreply : Option.Rel Buffer.Same flight reply) :
  ∃ b, chooseOut reply slot = (some b, none) ∧ b.name = .out ∧ b.records.size = room
  := by
  cases slot with
  | some b =>
    obtain ⟨⟨_, hb, hname, hsize⟩, -, rfl⟩ := h
    cases hb
    cases hreply
    exact ⟨b, rfl, hname, hsize⟩
  | none =>
    obtain ⟨-, -, b, rfl, hname, hsize⟩ := h
    cases hreply with
    | some hsame => exact ⟨_, rfl, hsame.name_eq.trans hname, hsame.size_eq.trans hsize⟩

/-- The block before is collected, and the sum is rounded. -/
theorem advances_rounding (ho : Obliging σ Accepts Parks) (hinput : ¬ IsInput arrays out)
    (hp : Parks engine data parked) (h : Tidy arrays out room parked₀ (.collecting [] s) parked)
    (hfits : (Point.collecting [] s).Fits arrays room Accepts) :
  Advances arrays out (Sound arrays out room Accepts Parks parked₀) (.collecting [] s) engine data
  := by
  obtain ⟨-, -, hs⟩ := hfits
  obtain ⟨reply, engine', data', hanswer, hreply, hp'⟩ := ho.wait hp out
  obtain ⟨b, hchoose, hname, hsize⟩ := chooseOut_of_lies h.outgoing hreply
  have hlen : s.cur.length ≤ room := hs.blocks.length_le s.cur List.mem_cons_self
  obtain ⟨filled, hfill, hname', hsize', -⟩ :=
    Buffer.fill_eq_ok (hsize.symm ▸ hlen) (hlen.trans hs.le_size)
  refine ⟨_, _, _, engine', data', .round hchoose hfill, hanswer, _, hp', ?_, ?_⟩
  · apply h.of_outgoing hinput (carries_of_carried_eq_none rfl _)
    · rintro _ ⟨⟩
      apply hname'.trans hname
    · exact fun _ => rfl
    · intro a _
      simp [place]
    · exact ⟨rfl, ⟨filled, hand_eq_some rfl (hname'.trans hname), hname'.trans hname,
        hsize'.trans hsize⟩, rfl⟩
  · exact ⟨hs.blocks, hs.le_size⟩

theorem slots_loop (sum : BlockSum) (slots : Slots) (report : RankReport) (blocks : List Span) :
  (loop arrays sum slots report blocks).slots = slots
  := by
  cases blocks <;> rfl

theorem carried_loop (sum : BlockSum) (slots : Slots) (report : RankReport) (blocks : List Span) :
  (loop arrays sum slots report blocks).carried = none
  := by
  cases blocks <;> rfl

theorem place_loop (sum : BlockSum) (slots : Slots) (report : RankReport) (blocks : List Span)
    (ha : a ∈ arrays) :
  (loop arrays sum slots report blocks).place a = if blocks ≠ [] then .flight else .slot
  := by
  cases blocks with
  | nil => rfl
  | cons cur rest => simp [loop, place, ha]

theorem fits_loop (hnodup : arrays.Nodup) {sum : BlockSum} (hsum : room ≤ sum.size) {slots : Slots}
    {report : RankReport} {blocks : List Span} (hblocks : Feasible arrays room Accepts blocks) :
  (loop arrays sum slots report blocks).Fits arrays room Accepts
  := by
  cases blocks with
  | nil => trivial
  | cons cur rest => exact ⟨hnodup, fun _ ha => ha, hblocks, hsum⟩

theorem outPlace_loop (sum : BlockSum) (slots : Slots) (report : RankReport) (blocks : List Span) :
  (loop arrays sum slots report blocks).outPlace = if slots.out.isSome then .slot else .flight
  := by
  cases blocks <;> rfl

/-- The sum is stored. -/
theorem advances_storing (ho : Obliging σ Accepts Parks) (hinput : ¬ IsInput arrays out)
    (hnodup : arrays.Nodup) (hp : Parks engine data parked) {b : Buffer}
    (h : Tidy arrays out room parked₀ (.storing b s) parked)
    (hfits : (Point.storing b s).Fits arrays room Accepts) :
  Advances arrays out (Sound arrays out room Accepts Parks parked₀) (.storing b s) engine data
  := by
  obtain ⟨hslot, ⟨_, hhand, hname, hsize⟩, hfree⟩ := h.outgoing
  obtain ⟨hb, -⟩ := Option.filter_eq_some_iff.mp hhand
  cases hb
  have hs : s.Fits arrays room Accepts := hfits
  obtain ⟨engine', data', hanswer, hp'⟩ :=
    ho.submit hp hfree (hs.blocks.accepts s.cur List.mem_cons_self b hsize).2
  refine ⟨_, _, _, engine', data', .store, hanswer, _, hp', ?_, ?_⟩
  · apply h.of_outgoing hinput _ (carries_of_carried_eq_none (carried_loop _ _ _ _) _)
    · rw [slots_loop]
      exact fun _ => rfl
    · intro a ha
      rw [place_loop _ _ _ _ ha, place]
    · have hempty : s.slots.out = none := hslot
      rw [outPlace_loop, slots_loop, hand, carried_loop, hempty]
      exact ⟨rfl, rfl, b, rfl, hname, hsize⟩
    · rintro _ ⟨⟩
      apply hname
  · apply fits_loop hnodup hs.le_size
    constructor
    · intro t ht
      apply hs.blocks.length_le t (List.mem_cons_of_mem s.cur ht)
    · intro t ht
      apply hs.blocks.accepts t (List.mem_cons_of_mem s.cur ht)

/-- Either the reducer has ended, or it makes a call, which is answered so that it can go on. -/
theorem Sound.advances (ho : Obliging σ Accepts Parks) (hinput : ¬ IsInput arrays out)
    (hnodup : arrays.Nodup) (h : Sound arrays out room Accepts Parks parked₀ p engine data) :
  (∃ report slots, p = .ended report slots) ∨
    Advances arrays out (Sound arrays out room Accepts Parks parked₀) p engine data
  := by
  obtain ⟨parked, hp, htidy, hfits⟩ := h
  cases p with
  | priming a todo s => exact .inr (advances_priming ho hinput hnodup hp htidy hfits)
  | collecting todo s =>
    cases todo with
    | nil => exact .inr (advances_rounding ho hinput hp htidy hfits)
    | cons a todo => exact .inr (advances_collecting ho hinput hp htidy hfits)
  | refilling a next b todo s => exact .inr (advances_refilling ho hinput hp htidy hfits)
  | storing b s => exact .inr (advances_storing ho hinput hnodup hp htidy hfits)
  | ended report slots => exact .inl ⟨report, slots, rfl⟩

/-! ### Whole runs -/

/-- On its way from a point to the end of the reducer, every point that a run comes to has a
property. The run is that of the program at the point, as `Step.program_eq` shows. -/
inductive Goes (arrays : List (Fin maxArray)) (out : Tag) (P : Point → σ → Data → Prop) :
    Point → σ → Data → Prop where
  | ended {report : RankReport} {slots : Slots} {engine : σ} {data : Data}
      (h : P (.ended report slots) engine data) :
      Goes arrays out P (.ended report slots) engine data
  | step {p p' : Point} {request : Call} {reply : request.Reply} {engine engine' : σ}
      {data data' : Data} (h : P p engine data) (hstep : p.Step arrays out request reply p')
      (hanswer : TransferEngine.answer request engine data = (reply, engine', data'))
      (hrest : Goes arrays out P p' engine' data') : Goes arrays out P p engine data

theorem Goes.mono {P Q : Point → σ → Data → Prop} (hPQ : ∀ p engine data, P p engine data →
    Q p engine data) (h : Goes arrays out P p engine data) :
  Goes arrays out Q p engine data
  := by
  induction h with
  | ended h => exact .ended (hPQ _ _ _ h)
  | step h hstep hanswer _ ih => exact .step (hPQ _ _ _ h) hstep hanswer ih

/-- From a sound point, the reducer comes to its end, and every point on the way is sound. -/
theorem Sound.goes (ho : Obliging σ Accepts Parks) (hinput : ¬ IsInput arrays out)
    (hnodup : arrays.Nodup) (h : Sound arrays out room Accepts Parks parked₀ p engine data) :
  Goes arrays out (Sound arrays out room Accepts Parks parked₀) p engine data
  := by
  -- What is left to do at the next point is a part of what is left to do here.
  generalize hsession : (p.program arrays out).run = session
  induction session generalizing p engine data with
  | done result =>
    rcases h.advances ho hinput hnodup with ⟨report, slots, rfl⟩ | hadvances
    · exact .ended h
    · obtain ⟨_, _, _, _, _, hstep, -⟩ := hadvances
      obtain ⟨_, hcall, -⟩ := hstep.program_eq
      rw [hsession] at hcall
      cases hcall
  | call request next ih =>
    rcases h.advances ho hinput hnodup with ⟨report, slots, rfl⟩ | hadvances
    · exact .ended h
    · obtain ⟨_, reply, p', engine', data', hstep, hanswer, h'⟩ := hadvances
      obtain ⟨_, hcall, hnext⟩ := hstep.program_eq
      rw [hsession] at hcall
      cases hcall
      exact .step h hstep hanswer (ih reply h' hnext.symm)

end Point

end Reducer

open Reducer

variable {σ : Type} [TransferEngine σ] {Accepts : Transfer → Prop}
variable {Parks : σ → Data → TagSlots Buffer → Prop}
variable {engine : σ} {data : Data} {parked : TagSlots Buffer}

/-- On every engine that accepts its transfers and hands their buffers back, the reducer goes from
its start, with all buffers in the slots that are carved out of the scratch memory, to its end, and
has each buffer in one place at every point. -/
theorem goes_reduceRank (ho : Obliging σ Accepts Parks) (range : Span) {nArray : Nat}
    (h₂ : 2 ≤ nArray) (hn : nArray ≤ maxArray) (scratch : Scratch) (hp : Parks engine data parked)
    (hfree : ∀ tag : Tag, tag.index.val ≤ nArray → parked.get? tag = none)
    (haccepts : ∀ s ∈ (range.blocks scratch.blockLen scratch.isBlockLen.1).toList,
      ∀ b : Buffer, b.records.size = scratch.blockLen →
        (∀ a : Nat, a < nArray → Accepts (.get a s b)) ∧ Accepts (.put s b)) :
  ∃ start : Point,
    start.program (arrays nArray) (.output ⟨nArray, Nat.lt_succ_of_le hn⟩)
      = reduceRank range nArray scratch ∧
    start.slots = .carve scratch nArray ∧
    start.Goes (arrays nArray) (.output ⟨nArray, Nat.lt_succ_of_le hn⟩)
      (fun p engine data => ∃ parked', Parks engine data parked' ∧
        Tidy (arrays nArray) (.output ⟨nArray, Nat.lt_succ_of_le hn⟩) scratch.blockLen parked p
          parked')
      engine data
  := by
  have htags := Nat.lt_succ_of_le hn
  have hfeasible : Feasible (arrays nArray) scratch.blockLen Accepts
      (range.blocks scratch.blockLen scratch.isBlockLen.1).toList := by
    constructor
    · intro s hs
      exact (Blocks.length_of_mem_toList hs).2
    · intro s hs b hb
      exact ⟨fun a ha => (haccepts s hs b hb).1 a (mem_arrays.mp ha), (haccepts s hs b hb).2⟩
  have hsound : Point.Sound (arrays nArray) (.output ⟨nArray, htags⟩) scratch.blockLen Accepts Parks
      parked (.start (arrays nArray) scratch.sum (.carve scratch nArray) (.empty range)
        (range.blocks scratch.blockLen scratch.isBlockLen.1).toList) engine data :=
    Point.sound_start hp (fun tag htag => hfree tag ((isInput_or_output_iff htags).mp htag)) _
      hfeasible
  refine ⟨_, ?_, (Point.start_eq _ _ _ _ _).1,
    (hsound.goes ho (not_isInput_output htags) (nodup_arrays nArray)).mono ?_⟩
  · rw [Point.program_start, reduceRank, dif_pos ⟨h₂, hn⟩]
  · rintro p engine data ⟨parked', hp', htidy, -⟩
    exact ⟨parked', hp', htidy⟩

end ReplicaSum
