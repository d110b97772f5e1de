import ReplicaSum.Proofs.Reducer
import ReplicaSum.Proofs.Sequential

/-!
# The calls of the reducer

Which calls the reducer makes, on any engine that accepts its transfers and hands their buffers
back, as the immediate and the threaded engine do. What an engine puts into the buffers has no
influence on them: with the contents of the buffers left out, the calls are those of
`Reducer.calls`, whatever the data are.
-/

namespace ReplicaSum

/-! ### Outlines -/

namespace Transfer

/-- A transfer without the contents of its buffer. -/
inductive Outline where
  | get (array : Nat) (records : Span) (buffer : BufferName)
  | put (records : Span) (buffer : BufferName)
deriving DecidableEq

/-- The buffer that is handed over with a transfer. -/
def buffer : Transfer → Buffer
  | .get _ _ buffer => buffer
  | .put _ buffer => buffer

/-- Leave out the contents of the buffer of a transfer. -/
def outline : Transfer → Outline
  | .get array records buffer => .get array records buffer.name
  | .put records buffer => .put records buffer.name

end Transfer

namespace Call

/-- A call without the contents of its buffer. -/
inductive Outline where
  | submit (tag : Tag) (transfer : Transfer.Outline)
  | wait (tag : Tag)
  | finish
deriving DecidableEq

/-- Leave out the contents of the buffer of a call. -/
def outline : Call → Outline
  | .submit tag t => .submit tag t.outline
  | .wait tag => .wait tag
  | .finish => .finish

end Call

namespace Session

variable {α β σ : Type} [TransferEngine σ]

/-- The calls of a session, in order and without the contents of their buffers. -/
def outlines (s : Session α) (engine : σ) (data : Data) : List Call.Outline :=
  (s.transcript engine data).map fun x => x.request.outline

theorem outlines_bind (s : Session α) (f : α → Session β) (engine : σ) (data : Data) :
  (s >>= f).outlines engine data
    = s.outlines engine data
      ++ (f (s.run engine data).1).outlines (s.run engine data).2.1 (s.run engine data).2.2
  := by
  induction s generalizing engine data with
  | done result => rfl
  | call request next ih => exact congrArg (request.outline :: ·) (ih _ _ _)

end Session

/-! ### Engines that keep buffers -/

/-- Buffers that differ in their contents at most. -/
structure Buffer.Same (b b' : Buffer) : Prop where
  name_eq : b'.name = b.name
  size_eq : b'.records.size = b.records.size

/-- An engine with certain buffers in flight accepts certain transfers under all free tags, after
which their buffers are in flight, and answers a wait with the buffer in flight under the tag, if
there is one. What it puts into the buffers and into the data, and when, is up to the engine. -/
structure Obliging (σ : Type) [TransferEngine σ] (Accepts : Transfer → Prop)
    (Parks : σ → Data → TagSlots Buffer → Prop) : Prop where
  submit : ∀ {engine data parked tag t}, Parks engine data parked → parked.get? tag = none →
    Accepts t → ∃ engine' data',
      TransferEngine.answer (.submit tag t) engine data
        = ((.ok () : Except TransferError Unit), engine', data') ∧
      Parks engine' data' (parked.set tag (some t.buffer))
  wait : ∀ {engine data parked}, Parks engine data parked → ∀ tag, ∃ reply engine' data',
      TransferEngine.answer (.wait tag) engine data
        = ((.ok reply : Except TransferError (Option Buffer)), engine', data') ∧
      Option.Rel Buffer.Same (parked.get? tag) reply ∧
      Parks engine' data' (parked.set tag none)

/-- An engine that answers like an obliging one is obliging. -/
theorem Obliging.of_answers {σ σ' : Type} [TransferEngine σ] [TransferEngine σ']
    {Accepts : Transfer → Prop} {Parks : σ → Data → TagSlots Buffer → Prop}
    (h : Obliging σ Accepts Parks) (R : σ → Data → σ' → Data → Prop)
    (hanswer : ∀ {e d e' d'} (request : Call), R e d e' d' →
      (∀ tag t, request = .submit tag t → Accepts t) →
      ∃ reply e₁ d₁ e₁' d₁', TransferEngine.answer request e d = (reply, e₁, d₁) ∧
        TransferEngine.answer request e' d' = (reply, e₁', d₁') ∧ R e₁ d₁ e₁' d₁') :
  Obliging σ' Accepts fun e' d' parked => ∃ e d, R e d e' d' ∧ Parks e d parked
  where
  submit := by
    rintro e' d' parked tag t ⟨e, d, hR, hp⟩ hfree ht
    obtain ⟨reply, e₁, d₁, e₁', d₁', hanswered, hanswered', hR₁⟩ := hanswer (.submit tag t) hR
      (by
        rintro _ _ ⟨⟩
        exact ht)
    obtain ⟨e₂, d₂, hok, hp₂⟩ := h.submit hp hfree ht
    obtain ⟨rfl, rfl, rfl⟩ : reply = .ok () ∧ e₁ = e₂ ∧ d₁ = d₂ := by
      simpa using hanswered.symm.trans hok
    exact ⟨e₁', d₁', hanswered', e₁, d₁, hR₁, hp₂⟩
  wait := by
    rintro e' d' parked ⟨e, d, hR, hp⟩ tag
    obtain ⟨reply, e₁, d₁, e₁', d₁', hanswered, hanswered', hR₁⟩ := hanswer (.wait tag) hR
      (by
        rintro _ _ ⟨⟩)
    obtain ⟨buffer, e₂, d₂, hok, hsame, hp₂⟩ := h.wait hp tag
    obtain ⟨rfl, rfl, rfl⟩ : reply = .ok buffer ∧ e₁ = e₂ ∧ d₁ = d₂ := by
      simpa using hanswered.symm.trans hok
    exact ⟨buffer, e₁', d₁', hanswered', hsame, e₁, d₁, hR₁, hp₂⟩

/-- A transfer leaves its buffer the same up to its contents. -/
theorem Transfer.same_filled (w : Window) (data : Data) (t : Transfer) :
  Buffer.Same t.buffer (t.filled w data)
  := by
  cases t with
  | get array records buffer => exact ⟨rfl, size_overwrite _ _ _⟩
  | put records buffer => exact ⟨rfl, rfl⟩

/-- Slots that hold the same buffers, up to their contents. -/
def SameParked (parked slots : TagSlots Buffer) : Prop :=
  ∀ tag, Option.Rel Buffer.Same (parked.get? tag) (slots.get? tag)

namespace SameParked

variable {parked slots : TagSlots Buffer} {tag : Tag} {b b' : Option Buffer}

theorem get?_eq_none (h : SameParked parked slots) (hfree : parked.get? tag = none) :
  slots.get? tag = none
  := by
  have hsame := h tag
  rw [hfree] at hsame
  generalize slots.get? tag = held at hsame
  cases hsame
  rfl

theorem set (h : SameParked parked slots) (hb : Option.Rel Buffer.Same b b') :
  SameParked (parked.set tag b) (slots.set tag b')
  := by
  intro u
  rw [TagSlots.get?_set, TagSlots.get?_set]
  split
  · apply hb
  · apply h u

end SameParked

/-- An immediate engine keeps the buffers in flight in its slots. -/
def Immediate.Keeps (w : Window) (e : Immediate) (_ : Data) (parked : TagSlots Buffer) : Prop :=
  e.window = w ∧ SameParked parked e.slots

/-- The immediate engine accepts the transfers that pass their checks. -/
theorem Immediate.obliging (w : Window) :
  Obliging Immediate (fun t => t.check w = .ok ()) (Immediate.Keeps w)
  := by
  constructor
  · rintro e data parked tag t ⟨rfl, hkept⟩ hfree ht
    use { e with slots := e.slots.set tag (some (t.filled e.window data)) }, t.stored e.window data
    constructor
    · simp only [TransferEngine.answer, submit_of_check_ok (hkept.get?_eq_none hfree) ht]
    · exact ⟨rfl, hkept.set (.some (t.same_filled e.window data))⟩
  · rintro e data parked ⟨rfl, hkept⟩ tag
    use e.slots.get? tag, { e with slots := e.slots.set tag none }, data
    constructor
    · rfl
    · exact ⟨hkept tag, rfl, hkept.set .none⟩

/-- An immediate engine and a threaded one for the same window. When the worker of the threaded one
has served its queue, the two hold the same buffers and leave the same data. -/
def Threaded.Follows (w : Window) (i : Immediate) (d : Data) (e : Threaded) (data : Data) : Prop :=
  ∃ s : Sequential, SameBuffers s i ∧ Ahead e data s d ∧ s.window = w

/-- A threaded engine keeps the buffers in flight that the immediate engine keeps which it
follows. -/
def Threaded.Keeps (w : Window) (e : Threaded) (data : Data) (parked : TagSlots Buffer) : Prop :=
  ∃ i d, Threaded.Follows w i d e data ∧ Immediate.Keeps w i d parked

theorem Immediate.keeps_new (w : Window) (data : Data) :
  Immediate.Keeps w (.new w) data .empty
  := by
  use rfl
  intro tag
  rw [TagSlots.get?_empty, Immediate.new, TagSlots.get?_empty]
  exact .none

theorem Threaded.keeps_new (w : Window) (data : Data) :
  Threaded.Keeps w (.new w) data .empty
  := ⟨.new w, data, ⟨.new w, .new w, .new w data, rfl⟩, Immediate.keeps_new w data⟩

/-- The threaded engine accepts the transfers that pass their checks. -/
theorem Threaded.obliging (w : Window) :
  Obliging Threaded (fun t => t.check w = .ok ()) (Threaded.Keeps w)
  := by
  apply (Immediate.obliging w).of_answers (Threaded.Follows w)
  rintro i d e data request ⟨s, hsame, hahead, rfl⟩ hchecked
  have hvalid : request.Valid s.window := by
    cases request with
    | submit tag t => exact hchecked tag t rfl
    | wait tag => trivial
    | finish => trivial
  obtain ⟨reply, s', i', d', hs, hi, hsame', hwindow⟩ := hsame.answer hvalid d
  obtain ⟨reply', s'', d'', e', data', hs', he, hahead'⟩ := hahead.answer request
  rw [hs] at hs'
  cases hs'
  exact ⟨reply, i', d', e', data', hi, he, s', hsame', hahead', hwindow⟩

namespace RankM

variable {α β σ : Type} [TransferEngine σ] {engine engine₁ engine₂ : σ} {data data₁ data₂ : Data}

/-- Started in the state `engine` and `data`, a program makes the given calls, ends with `outcome`,
and leaves the state `engine'` and `data'`. -/
structure Makes (m : RankM α) (engine : σ) (data : Data) (calls : List Call.Outline)
    (outcome : Except (Failure RankError) α) (engine' : σ) (data' : Data) : Prop where
  runs : Runs Call.Any m engine data outcome engine' data'
  outlines_eq : Session.outlines m.run engine data = calls

namespace Makes

theorem pure (a : α) (engine : σ) (data : Data) :
  Makes (pure a) engine data [] (.ok a) engine data
  := ⟨.pure a engine data, rfl⟩

/-- A program goes on with its calls where its first part has ended. -/
theorem bind {m : RankM α} {f : α → RankM β} {a : α} {outcome : Except (Failure RankError) β}
    {calls calls' : List Call.Outline} (h : Makes m engine data calls (.ok a) engine₁ data₁)
    (h' : Makes (f a) engine₁ data₁ calls' outcome engine₂ data₂) :
  Makes (m >>= f) engine data (calls ++ calls') outcome engine₂ data₂
  := by
  use h.runs.bind h'.runs
  rw [ExceptT.run_bind, Session.outlines_bind, h.outlines_eq, h.runs.run_eq]
  apply congrArg (calls ++ ·) h'.outlines_eq

/-- A program whose first part makes no call. -/
theorem bind_silent {m : RankM α} {f : α → RankM β} {a : α}
    {outcome : Except (Failure RankError) β} {calls : List Call.Outline}
    (h : Makes m engine data [] (.ok a) engine₁ data₁)
    (h' : Makes (f a) engine₁ data₁ calls outcome engine₂ data₂) :
  Makes (m >>= f) engine data calls outcome engine₂ data₂
  := h.bind h'

/-- A result that is insisted on is there. -/
theorem insist {result : Except Violation α} {a : α} (h : result = .ok a) (engine : σ)
    (data : Data) :
  Makes (RankM.insist result) engine data [] (.ok a) engine data
  := by
  subst h
  apply pure a engine data

/-- A program goes on when its call is answered without an error. -/
theorem submit {tag : Tag} {t : Transfer}
    (h : TransferEngine.answer (.submit tag t) engine data
      = ((.ok () : Except TransferError Unit), engine₁, data₁)) :
  Makes (RankM.ask (Session.request (.submit tag t))) engine data [.submit tag t.outline] (.ok ())
    engine₁ data₁
  := by
  constructor
  · apply Runs.ask
    · simp only [Session.request, Session.run, h]
    · exact ⟨trivial, trivial⟩
  · rfl

/-- A program goes on with the buffer that it has waited for. -/
theorem wait {tag : Tag} {reply : Option Buffer}
    (h : TransferEngine.answer (.wait tag) engine data
      = ((.ok reply : Except TransferError (Option Buffer)), engine₁, data₁)) :
  Makes (RankM.wait tag) engine data [.wait tag] (.ok reply) engine₁ data₁
  := by
  constructor
  · apply Runs.ask
    · simp only [Session.request, Session.run, h]
    · exact ⟨trivial, trivial⟩
  · rfl

end Makes

end RankM

namespace Reducer

/-! ### Which calls there are -/

/-- The call that begins to fetch a block of an array into the buffer of the array. -/
def fetchCall (a : Fin maxArray) (s : Span) : Call.Outline :=
  .submit (.input a) (.get a s (.staged a))

/-- The call that begins to store a block. -/
def storeCall (out : Tag) (s : Span) : Call.Outline := .submit out (.put s .out)

/-- The calls by which a block of an array is collected and its next block, if there is one, is
fetched. -/
def turnCalls (next : Option Span) (a : Fin maxArray) : List Call.Outline :=
  .wait (.input a) :: (next.map (fetchCall a)).toList

/-- The calls by which blocks are reduced whose first one has already been asked for. -/
def blockCalls (arrays : List (Fin maxArray)) (out : Tag) : List Span → List Call.Outline
  | [] => []
  | s :: rest =>
    arrays.flatMap (turnCalls rest.head?) ++ .wait out :: storeCall out s ::
      blockCalls arrays out rest

/-- The calls by which blocks are reduced: the first block of every array is fetched; then, for one
block after the other, the block of every array is collected and the next one is fetched, the
block before is collected, and the sum is stored. -/
def calls (arrays : List (Fin maxArray)) (out : Tag) : List Span → List Call.Outline
  | [] => []
  | first :: rest => arrays.map (fetchCall · first) ++ blockCalls arrays out (first :: rest)

/-! ### Priming and consuming -/

/-- What slots hold under the tags of the arrays. -/
def Stock.ofSlots {α τ : Type} (slots : τ → TagSlots α)
    (P : Fin maxArray → Option Span → Option α → Prop) : Stock τ where
  SameOff tags s s' := ∀ u, ¬ tags u → (slots s').get? u = (slots s).get? u
  Holds s a next := P a next ((slots s).get? (.input a))
  refl _ _ _ _ := rfl
  trans h h' u hu := (h' u hu).trans (h u hu)
  mono h htags u hu := h u (mt (htags u) hu)
  congr h hsame htags := by
    rw [hsame _ htags]
    apply h

/-- The buffer of an array, with room for `room` records, is in flight if a block has been asked
for. -/
def Lent (room : Nat) (a : Fin maxArray) (next : Option Span) (parked : Option Buffer) : Prop :=
  match next with
  | none => parked = none
  | some _ => ∃ b, parked = some b ∧ b.name = .staged a ∧ b.records.size = room

variable {σ : Type} [TransferEngine σ] {Accepts : Transfer → Prop}
variable {Parks : σ → Data → TagSlots Buffer → Prop}
variable {engine : σ} {data : Data} {parked : TagSlots Buffer} {room : Nat}
variable {a : Fin maxArray} {as : List (Fin maxArray)} {next : Option Span} {out : Tag}

/-- The buffers in flight while an engine runs. -/
abbrev parkedStock (σ : Type) (room : Nat) : Stock (σ × Data × TagSlots Buffer) :=
  .ofSlots (fun s => s.2.2) (Lent room)

/-- Beginning to fetch a block puts the buffer of the array in flight. -/
theorem makes_beginGet (ho : Obliging σ Accepts Parks) (hp : Parks engine data parked)
    (hfree : parked.get? (.input a) = none) {s : Span} {b : Buffer} (hname : b.name = .staged a)
    (haccepts : Accepts (.get a s b)) :
  ∃ engine' data' parked',
    RankM.Makes (RankM.beginGet (.input a) a s b) engine data [fetchCall a s] (.ok ())
      engine' data' ∧
    Parks engine' data' parked' ∧
    (parkedStock σ b.records.size).SameOff (· = .input a) (engine, data, parked)
      (engine', data', parked') ∧
    (parkedStock σ b.records.size).Holds (engine', data', parked') a (some s)
  := by
  obtain ⟨engine', data', hanswer, hp'⟩ := ho.submit hp hfree haccepts
  use engine', data', parked.set (.input a) (some b)
  constructor
  · have hmakes := RankM.Makes.submit hanswer
    rw [Transfer.outline, hname] at hmakes
    apply hmakes
  constructor
  · apply hp'
  constructor
  · intro u hu
    rw [TagSlots.get?_set, if_neg (Ne.symm hu)]
  · use b
    rw [TagSlots.get?_set, if_pos rfl]
    exact ⟨rfl, hname, rfl⟩

/-- Priming makes a call for every array. -/
theorem makes_prime (ho : Obliging σ Accepts Parks) (hp : Parks engine data parked)
    (scratch : Scratch) (first : Span) (as : List (Fin maxArray)) (hnodup : as.Nodup)
    (haccepts : ∀ a ∈ as, Accepts (.get a first (scratch.stagedBuffer a)))
    (hfree : ∀ a ∈ as, parked.get? (.input a) = none) :
  ∃ engine' data' parked',
    RankM.Makes (Bare.prime scratch first as) engine data (as.map (fetchCall · first)) (.ok ())
      engine' data' ∧
    Parks engine' data' parked' ∧
    (parkedStock σ scratch.blockLen).SameOff (IsInput as) (engine, data, parked)
      (engine', data', parked') ∧
    ∀ a ∈ as, (parkedStock σ scratch.blockLen).Holds (engine', data', parked') a (some first)
  := by
  have hturns := (parkedStock σ scratch.blockLen).turns (γ := Unit) none (some first)
    (fun s _ => Parks s.1 s.2.1 s.2.2)
    (fun as _ s _ s' => RankM.Makes (Bare.prime scratch first as) s.1 s.2.1
      (as.map (fetchCall · first)) (.ok ()) s'.1 s'.2.1)
    (fun _ s => .pure () s.1 s.2.1) as hnodup ?_ (engine, data, parked) () hp hfree
  · obtain ⟨⟨⟩, ⟨engine', data', parked'⟩, hmakes, hp', hsame, hholds⟩ := hturns
    exact ⟨engine', data', parked', hmakes, hp', hsame, hholds⟩
  · rintro a ha rest ⟨engine, data, parked⟩ c hp hfree
    obtain ⟨engine₁, data₁, parked₁, hmakes, hp₁, hsame, hholds⟩ :=
      makes_beginGet ho hp hfree rfl (haccepts a ha)
    rw [scratch.size_stagedBuffer a] at hsame hholds
    exact ⟨(), (engine₁, data₁, parked₁), hsame, hholds, hp₁, fun _ _ hrest => hmakes.bind hrest⟩

/-- Refilling makes a call if there is a next block. -/
theorem makes_refill (next : Option Span) (ho : Obliging σ Accepts Parks)
    (hp : Parks engine data parked) (hfree : parked.get? (.input a) = none) {b : Buffer}
    (hname : b.name = .staged a) (haccepts : ∀ s, next = some s → Accepts (.get a s b)) :
  ∃ engine' data' parked',
    RankM.Makes (Bare.refill a next b) engine data (next.map (fetchCall a)).toList (.ok ())
      engine' data' ∧
    Parks engine' data' parked' ∧
    (parkedStock σ b.records.size).SameOff (· = .input a) (engine, data, parked)
      (engine', data', parked') ∧
    (parkedStock σ b.records.size).Holds (engine', data', parked') a next
  := by
  cases next with
  | none =>
    exact ⟨engine, data, parked, .pure () engine data, hp, Stock.refl _ _ _, hfree⟩
  | some s => exact makes_beginGet ho hp hfree hname (haccepts s rfl)

/-- One array has its turn. -/
theorem makes_consume_cons (ho : Obliging σ Accepts Parks) (hp : Parks engine data parked)
    {cur : Span} (hlent : Lent room a (some cur) (parked.get? (.input a)))
    (hlen : cur.length ≤ room) {sum : BlockSum} (hsum : room ≤ sum.size)
    (haccepts : ∀ s, next = some s → ∀ b : Buffer, b.records.size = room → Accepts (.get a s b))
    (rest : List (Fin maxArray)) :
  ∃ sum₁ engine₁ data₁ parked₁,
    (parkedStock σ room).SameOff (· = .input a) (engine, data, parked) (engine₁, data₁, parked₁) ∧
    (parkedStock σ room).Holds (engine₁, data₁, parked₁) a next ∧
    Parks engine₁ data₁ parked₁ ∧ sum₁.size = sum.size ∧
    ∀ {calls outcome engine' data'},
      RankM.Makes (Bare.consume cur.length next rest sum₁) engine₁ data₁ calls outcome engine'
        data' →
      RankM.Makes (Bare.consume cur.length next (a :: rest) sum) engine data
        (turnCalls next a ++ calls) outcome engine' data'
  := by
  obtain ⟨lent, hlent, hname, hroom⟩ := hlent
  obtain ⟨reply, engine₀, data₀, hanswer, hreply, hp₀⟩ := ho.wait hp (.input a)
  rw [hlent] at hreply
  cases hreply with
  | some hsame =>
  rename_i held
  have hsize : held.records.size = room := hsame.size_eq.trans hroom
  have hfront : cur.length ≤ held.records.size := by omega
  have hblock : (held.records.take cur.length).size ≤ sum.size := by
    rw [Array.take_eq_extract, Array.size_extract]
    omega
  obtain ⟨sum₁, habsorb, hsize₁, -⟩ := absorb_eq_ok a hblock
  have hfree : (parked.set (.input a) none).get? (.input a) = none := by
    rw [TagSlots.get?_set, if_pos rfl]
  obtain ⟨engine₁, data₁, parked₁, hrefill, hp₁, hsame₁, hholds⟩ :=
    makes_refill next ho hp₀ hfree (hsame.name_eq.trans hname)
      fun s hs => haccepts s hs held hsize
  rw [hsize] at hsame₁ hholds
  use sum₁, engine₁, data₁, parked₁
  constructor
  · intro u hu
    rw [hsame₁ u hu, TagSlots.get?_set, if_neg (Ne.symm hu)]
  use hholds, hp₁, hsize₁
  intro calls outcome engine' data' hrest
  apply (RankM.Makes.wait hanswer).bind
  apply RankM.Makes.bind_silent (RankM.Makes.pure held _ _)
  apply RankM.Makes.bind_silent (RankM.Makes.insist (Buffer.front_eq_ok hfront) _ _)
  apply RankM.Makes.bind_silent (RankM.Makes.insist habsorb _ _)
  apply hrefill.bind hrest

/-- Consuming a block makes the calls of a turn for every array. -/
theorem makes_consume (ho : Obliging σ Accepts Parks) (hp : Parks engine data parked) {cur : Span}
    (hlen : cur.length ≤ room) {sum : BlockSum} (hsum : room ≤ sum.size)
    (as : List (Fin maxArray)) (hnodup : as.Nodup)
    (haccepts : ∀ s, next = some s → ∀ b : Buffer, b.records.size = room →
      ∀ a ∈ as, Accepts (.get a s b))
    (hlent : ∀ a ∈ as, Lent room a (some cur) (parked.get? (.input a))) :
  ∃ sum' engine' data' parked',
    RankM.Makes (Bare.consume cur.length next as sum) engine data (as.flatMap (turnCalls next))
      (.ok sum') engine' data' ∧
    Parks engine' data' parked' ∧ room ≤ sum'.size ∧
    (parkedStock σ room).SameOff (IsInput as) (engine, data, parked) (engine', data', parked') ∧
    ∀ a ∈ as, (parkedStock σ room).Holds (engine', data', parked') a next
  := by
  have hturns := (parkedStock σ room).turns (some cur) next
    (fun s sum => Parks s.1 s.2.1 s.2.2 ∧ room ≤ sum.size)
    (fun as sum s sum' s' => RankM.Makes (Bare.consume cur.length next as sum) s.1 s.2.1
      (as.flatMap (turnCalls next)) (.ok sum') s'.1 s'.2.1)
    (fun sum s => .pure sum s.1 s.2.1) as hnodup ?_ (engine, data, parked) sum
    ⟨hp, hsum⟩ hlent
  · obtain ⟨sum', ⟨engine', data', parked'⟩, hmakes, ⟨hp', hsum'⟩, hsame, hholds⟩ := hturns
    exact ⟨sum', engine', data', parked', hmakes, hp', hsum', hsame, hholds⟩
  · rintro a ha rest ⟨engine, data, parked⟩ sum ⟨hp, hsum⟩ hlent
    obtain ⟨sum₁, engine₁, data₁, parked₁, hsame, hholds, hp₁, hsize, hmakes⟩ :=
      makes_consume_cons ho hp hlent hlen hsum (fun s hs b hb => haccepts s hs b hb a ha) rest
    exact ⟨sum₁, (engine₁, data₁, parked₁), hsame, hholds, ⟨hp₁, hsize ▸ hsum⟩,
      fun _ _ hrest => hmakes hrest⟩

/-! ### The loop -/

/-- A buffer for the outgoing blocks, with room for `room` records. -/
def Outgoing (room : Nat) (b : Option Buffer) : Prop :=
  ∃ b', b = some b' ∧ b'.name = .out ∧ b'.records.size = room

/-- A buffer that has come back is a buffer for the outgoing blocks if it was one. -/
theorem Outgoing.of_same {lent reply spare : Option Buffer} (h : Outgoing room (lent.or spare))
    (hsame : Option.Rel Buffer.Same lent reply) :
  Outgoing room (reply.or spare)
  := by
  cases hsame with
  | none => apply h
  | some hsame =>
    obtain ⟨b, hb, hname, hsize⟩ := h
    rw [Option.some_or, Option.some.injEq] at hb
    subst hb
    exact ⟨_, rfl, hsame.name_eq.trans hname, hsame.size_eq.trans hsize⟩

/-- Storing a block makes two calls: the block before is collected first. -/
theorem makes_emit (ho : Obliging σ Accepts Parks) (hp : Parks engine data parked) {cur : Span}
    (hlen : cur.length ≤ room) {sum : BlockSum} (hsum : room ≤ sum.size) {spare : Option Buffer}
    (hout : Outgoing room ((parked.get? out).or spare))
    (haccepts : ∀ b : Buffer, b.records.size = room → Accepts (.put cur b)) :
  ∃ spare' engine' data' parked',
    RankM.Makes (Bare.emit out cur sum spare) engine data [.wait out, storeCall out cur]
      (.ok spare') engine' data' ∧
    Parks engine' data' parked' ∧
    (parkedStock σ room).SameOff (· = out) (engine, data, parked) (engine', data', parked') ∧
    Outgoing room (parked'.get? out)
  := by
  obtain ⟨reply, engine₀, data₀, hanswer, hreply, hp₀⟩ := ho.wait hp out
  obtain ⟨b, hb, hname, hsize⟩ := hout.of_same hreply
  have hfit : cur.length ≤ b.records.size := by omega
  have hsum' : cur.length ≤ sum.size := by omega
  obtain ⟨b', hfill, hname', hsize', -⟩ := Buffer.fill_eq_ok hfit hsum'
  obtain ⟨spare', hchoose⟩ := chooseOut_eq hb
  have hroom : b'.records.size = room := hsize'.trans hsize
  have hfree : (parked.set out none).get? out = none := by
    rw [TagSlots.get?_set, if_pos rfl]
  obtain ⟨engine', data', hanswer', hp'⟩ := ho.submit hp₀ hfree (haccepts b' hroom)
  have hstore := RankM.Makes.submit hanswer'
  rw [Transfer.outline, hname', hname] at hstore
  use spare', engine', data', (parked.set out none).set out (some b')
  constructor
  · apply (RankM.Makes.wait hanswer).bind
    rw [hchoose]
    apply RankM.Makes.bind_silent (RankM.Makes.pure b _ _)
    apply RankM.Makes.bind_silent (RankM.Makes.insist hfill _ _)
    apply hstore.bind (RankM.Makes.pure spare' _ _)
  use hp'
  constructor
  · intro u hu
    rw [TagSlots.get?_set, if_neg (Ne.symm hu), TagSlots.get?_set, if_neg (Ne.symm hu)]
  · exact ⟨b', by rw [TagSlots.get?_set, if_pos rfl], hname'.trans hname, hroom⟩

/-- The loop makes the calls for its blocks and comes to its end. -/
theorem makes_reduceBlocks (ho : Obliging σ Accepts Parks) {arrays : List (Fin maxArray)}
    (hnodup : arrays.Nodup) (hinput : ¬ IsInput arrays out) {start stop : Nat} (blocks : List Span)
    (htiles : Span.Tiles start stop blocks) (hlen : ∀ s ∈ blocks, s.length ≤ room)
    (haccepts : ∀ s ∈ blocks, ∀ b : Buffer, b.records.size = room →
      (∀ a ∈ arrays, Accepts (.get a s b)) ∧ Accepts (.put s b))
    (hp : Parks engine data parked) {sum : BlockSum} (hsum : room ≤ sum.size)
    {spare : Option Buffer} (report : RankReport)
    (hlent : ∀ a ∈ arrays, Lent room a blocks.head? (parked.get? (.input a)))
    (hout : Outgoing room ((parked.get? out).or spare)) :
  ∃ engine' data',
    RankM.Makes (Bare.reduceBlocks arrays out blocks sum spare report) engine data
      (blockCalls arrays out blocks)
      (.ok ⟨report.range, report.nBlock + blocks.length, report.nRecord + (stop - start)⟩)
      engine' data'
  := by
  induction blocks generalizing start engine data parked sum spare report with
  | nil =>
    cases htiles
    use engine, data
    rw [List.length_nil, Nat.sub_self]
    exact .pure report engine data
  | cons cur rest ih =>
    cases htiles with
    | cons hcur htiles =>
    have hlen₀ := hlen cur List.mem_cons_self
    obtain ⟨sum', engine₁, data₁, parked₁, hconsume, hp₁, hsum', hsame₁, hlent₁⟩ :=
      makes_consume ho hp hlen₀ hsum arrays hnodup
        (fun s hs b hb => (haccepts s (List.mem_cons_of_mem cur (List.mem_of_mem_head? hs)) b hb).1)
        hlent
    rw [← hsame₁ out hinput] at hout
    obtain ⟨spare', engine₂, data₂, parked₂, hemit, hp₂, hsame₂, hout₂⟩ :=
      makes_emit ho hp₁ hlen₀ hsum' hout fun b hb => (haccepts cur List.mem_cons_self b hb).2
    have hlent₂ := Stock.holds_of_sameOff hinput hsame₂ hlent₁
    have hout₂' : Outgoing room ((parked₂.get? out).or spare') := by
      obtain ⟨b, hb, hname, hsize⟩ := hout₂
      exact ⟨b, by rw [hb, Option.some_or], hname, hsize⟩
    obtain ⟨engine', data', hloop⟩ := ih htiles (fun s hs => hlen s (List.mem_cons_of_mem cur hs))
      (fun s hs => haccepts s (List.mem_cons_of_mem cur hs)) hp₂ hsum'
      (report.addBlock cur.length) hlent₂ hout₂'
    use engine', data'
    rw [addBlock_add hcur htiles.le] at hloop
    apply hconsume.bind (hemit.bind hloop)

/-- Whatever blocks there are, the calls are those for these blocks. -/
theorem makes_reduceAll (ho : Obliging σ Accepts Parks) {arrays : List (Fin maxArray)}
    (hnodup : arrays.Nodup) (hinput : ¬ IsInput arrays out) {scratch : Scratch} {start stop : Nat}
    (blocks : List Span) (htiles : Span.Tiles start stop blocks)
    (hlen : ∀ s ∈ blocks, s.length ≤ scratch.blockLen)
    (haccepts : ∀ s ∈ blocks, ∀ b : Buffer, b.records.size = scratch.blockLen →
      (∀ a ∈ arrays, Accepts (.get a s b)) ∧ Accepts (.put s b))
    (hp : Parks engine data parked)
    (hfree : ∀ tag, IsInput arrays tag ∨ tag = out → parked.get? tag = none) (report : RankReport) :
  ∃ engine' data',
    RankM.Makes (Bare.reduceAll arrays out blocks scratch report) engine data
      (calls arrays out blocks)
      (.ok ⟨report.range, report.nBlock + blocks.length, report.nRecord + (stop - start)⟩)
      engine' data'
  := by
  cases blocks with
  | nil =>
    cases htiles
    use engine, data
    rw [List.length_nil, Nat.sub_self]
    exact .pure report engine data
  | cons first rest =>
    obtain ⟨engine₁, data₁, parked₁, hprime, hp₁, hsame, hlent⟩ :=
      makes_prime ho hp scratch first arrays hnodup
        (fun a ha => (haccepts first List.mem_cons_self _ (scratch.size_stagedBuffer a)).1 a ha)
        (fun a ha => hfree _ (.inl ⟨a, ha, rfl⟩))
    have hout : Outgoing scratch.blockLen ((parked₁.get? out).or (some scratch.outBuffer)) := by
      rw [hsame out hinput, hfree out (.inr rfl), Option.none_or]
      exact ⟨scratch.outBuffer, rfl, rfl, scratch.size_outBuffer⟩
    obtain ⟨engine', data', hloop⟩ := makes_reduceBlocks ho hnodup hinput (first :: rest) htiles
      hlen haccepts hp₁ scratch.sum_size report hlent hout
    exact ⟨engine', data', hprime.bind hloop⟩

/-- Between a block of a range and a buffer with room for a block, all transfers pass their checks
if the range lies inside of the window. -/
theorem check_transfers {w : Window} {range : Span} (scratch : Scratch)
    (hrange : ∀ i ∈ range, i ∈ w.owned) {nArray : Nat} (hn : nArray ≤ w.nArray) :
  ∀ s ∈ (range.blocks scratch.blockLen scratch.isBlockLen.1).toList,
    ∀ b : Buffer, b.records.size = scratch.blockLen →
      (∀ a : Nat, a < nArray → (Transfer.get a s b).check w = .ok ()) ∧
        (Transfer.put s b).check w = .ok ()
  := by
  intro s hs b hb
  have hcheck := check_blocks scratch hrange hs
  rw [← hb] at hcheck
  constructor
  · intro a ha
    rw [Transfer.check, if_neg (by omega), hcheck]
  · apply hcheck

end Reducer

open Reducer

variable {σ : Type} [TransferEngine σ] {Accepts : Transfer → Prop}
variable {Parks : σ → Data → TagSlots Buffer → Prop}
variable {engine : σ} {data : Data} {parked : TagSlots Buffer}

/-- On every engine that accepts its transfers and hands their buffers back, the reducer makes the
calls for the blocks of its range and reports all of them. -/
theorem makes_reduceRank (ho : Obliging σ Accepts Parks) (range : Span) {nArray : Nat}
    (h₂ : 2 ≤ nArray) (hn : nArray ≤ maxArray) (scratch : Scratch) (hp : Parks engine data parked)
    (hfree : ∀ tag : Tag, tag.index.val ≤ nArray → parked.get? tag = none)
    (haccepts : ∀ s ∈ (range.blocks scratch.blockLen scratch.isBlockLen.1).toList,
      ∀ b : Buffer, b.records.size = scratch.blockLen →
        (∀ a : Nat, a < nArray → Accepts (.get a s b)) ∧ Accepts (.put s b)) :
  ∃ engine' data',
    RankM.Makes (reduceRank range nArray scratch) engine data
      (calls (arrays nArray) (.output ⟨nArray, Nat.lt_succ_of_le hn⟩)
        (range.blocks scratch.blockLen scratch.isBlockLen.1).toList)
      (.ok (.complete range scratch.blockLen)) engine' data'
  := by
  have htags := Nat.lt_succ_of_le hn
  obtain ⟨engine', data', hmakes⟩ := makes_reduceAll ho (nodup_arrays nArray)
    (not_isInput_output htags) _ Span.blocks_tiles (fun s hs => (Blocks.length_of_mem_toList hs).2)
    (fun s hs b hb => ⟨fun a ha => (haccepts s hs b hb).1 a (mem_arrays.mp ha),
      (haccepts s hs b hb).2⟩)
    hp (fun tag htag => hfree tag ((isInput_or_output_iff htags).mp htag)) (.empty range)
  rw [RankReport.mk_blocks_eq_complete] at hmakes
  use engine', data'
  rw [reduceRank_eq_bare range h₂ hn]
  apply hmakes

end ReplicaSum
