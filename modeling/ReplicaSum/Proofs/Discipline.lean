import ReplicaSum.Proofs.Custody
import Mathlib.Data.Finset.Basic
import Mathlib.Data.Finset.Dedup

/-!
# The discipline of the reducer's calls

What the calls of the reducer amount to. A `Ledger` follows the local buffers of a rank from call to
call: a buffer is held by the rank or lent to the engine under a tag, and a call that hands over a
buffer can be made only while the buffer is held and the tag is free. The calls of a rank keep to
this, with every buffer under a tag of its own, fetch every block of every array once, and store
every block once, after its inputs and the block before have been collected.
-/

namespace ReplicaSum

namespace Transfer.Outline

/-- The buffer that is handed over with a transfer. -/
def buffer : Transfer.Outline → BufferName
  | .get _ _ buffer => buffer
  | .put _ buffer => buffer

end Transfer.Outline

namespace Call.Outline

/-- The block that a call begins to fetch for an array. -/
def fetched (a : Fin maxArray) : Call.Outline → Option Span
  | .submit _ (.get b s _) => if b = a then some s else none
  | _ => none

/-- The block that a call begins to store. -/
def stored : Call.Outline → Option Span
  | .submit _ (.put s _) => some s
  | _ => none

/-- Whether a call begins a transfer. -/
def isSubmit : Call.Outline → Bool
  | .submit _ _ => true
  | _ => false

end Call.Outline

/-! ### Ledgers -/

/-- Where the local buffers of a client are, and what has been collected. -/
structure Ledger where
  /-- The buffers that the client holds. -/
  held : Finset BufferName
  /-- The transfers in flight, with whose buffers the engine is entrusted. -/
  lent : TagSlots Transfer.Outline
  /-- The transfers that have been waited for, the latest first. -/
  collected : List Transfer.Outline

namespace Ledger

/-- The ledger once a transfer has been begun. -/
def begun (l : Ledger) (tag : Tag) (t : Transfer.Outline) : Ledger :=
  { l with held := l.held.erase t.buffer, lent := l.lent.set tag (some t) }

/-- The ledger once the transfer under a tag, if there is one, has been waited for. -/
def freed (l : Ledger) (tag : Tag) : Ledger :=
  match l.lent.get? tag with
  | none => l
  | some t => ⟨insert t.buffer l.held, l.lent.set tag none, t :: l.collected⟩

/-- A call that a client may make: it begins transfers only under free tags and hands over only
buffers that it holds. -/
inductive Step : Ledger → Call.Outline → Ledger → Prop where
  | submit {l : Ledger} {tag : Tag} {t : Transfer.Outline} (hfree : l.lent.get? tag = none)
      (hheld : t.buffer ∈ l.held) : Step l (.submit tag t) (l.begun tag t)
  | wait (l : Ledger) (tag : Tag) : Step l (.wait tag) (l.freed tag)

/-- Calls that a client may make one after the other, each of which satisfies `P` together with the
ledger that it meets. -/
inductive Runs (P : Ledger → Call.Outline → Prop) : Ledger → List Call.Outline → Ledger → Prop where
  | nil (l : Ledger) : Runs P l [] l
  | cons {l l₁ l' : Ledger} {c : Call.Outline} {calls : List Call.Outline} (hP : P l c)
      (hstep : Step l c l₁) (hrest : Runs P l₁ calls l') : Runs P l (c :: calls) l'

/-- A buffer is in one place: the client holds it and it is under no tag, or it is under the given
tag and under no other one, and the client doesn't hold it. -/
inductive InOnePlace (l : Ledger) (b : BufferName) (tag : Tag) : Prop where
  | held (h : b ∈ l.held) (hnot : ∀ u t, l.lent.get? u = some t → t.buffer ≠ b)
  | lent (h : ∃ t, l.lent.get? tag = some t ∧ t.buffer = b) (hnot : b ∉ l.held)
      (honly : ∀ u t, l.lent.get? u = some t → t.buffer = b → u = tag)

variable {l l₁ l' : Ledger} {tag u : Tag} {t : Transfer.Outline}
variable {calls calls' : List Call.Outline} {P : Ledger → Call.Outline → Prop}

theorem Runs.append (h : Runs P l calls l₁) (h' : Runs P l₁ calls' l') :
  Runs P l (calls ++ calls') l'
  := by
  induction h with
  | nil => exact h'
  | cons hP hstep _ ih => exact .cons hP hstep (ih h')

@[simp]
theorem get?_lent_begun :
  (l.begun tag t).lent.get? u = if tag = u then some t else l.lent.get? u
  := TagSlots.get?_set _ _ _ _

@[simp]
theorem get?_lent_freed :
  (l.freed tag).lent.get? u = if tag = u then none else l.lent.get? u
  := by
  rw [freed]
  split
  · rename_i hnone
    split
    · rename_i htag
      rw [← htag, hnone]
    · rfl
  · apply TagSlots.get?_set

/-- What has been collected stays collected. -/
theorem mem_collected_freed (h : t ∈ l.collected) :
  t ∈ (l.freed tag).collected
  := by
  rw [freed]
  split
  · apply h
  · apply List.mem_cons_of_mem _ h

/-- What is in flight under a tag is collected by waiting for it. -/
theorem mem_collected_freed_of_lent (h : l.lent.get? tag = some t) :
  t ∈ (l.freed tag).collected
  := by
  rw [freed, h]
  apply List.mem_cons_self

end Ledger

namespace Reducer

open Call.Outline (fetched stored isSubmit)

variable {arrays as : List (Fin maxArray)} {out tag u : Tag} {b b' : BufferName} {l l' : Ledger}
variable {t : Transfer.Outline} {blocks : List Span} {next : Option Span} {a : Fin maxArray}

/-! ### Buffers and their tags -/

/-- Each buffer of a rank has a tag of its own: the buffer for the blocks of an array has the tag of
the array, the buffer for the outgoing blocks has the outgoing tag. -/
def Owns (arrays : List (Fin maxArray)) (out : Tag) (b : BufferName) (tag : Tag) : Prop :=
  (∃ a ∈ arrays, b = .staged a ∧ tag = .input a) ∨ b = .out ∧ tag = out

theorem Owns.staged (ha : a ∈ arrays) :
  Owns arrays out (.staged a) (.input a)
  := .inl ⟨a, ha, rfl, rfl⟩

theorem Owns.outgoing :
  Owns arrays out .out out
  := .inr ⟨rfl, rfl⟩

/-- A buffer has only one tag. -/
theorem Owns.tag_eq (h : Owns arrays out b tag) (h' : Owns arrays out b u) :
  tag = u
  := by
  obtain ⟨a, -, rfl, rfl⟩ | ⟨rfl, rfl⟩ := h
  · obtain ⟨a', -, hb, rfl⟩ | ⟨hb, -⟩ := h'
    · rw [Fin.ext (BufferName.staged.inj hb)]
    · cases hb
  · obtain ⟨a', -, hb, -⟩ | ⟨-, rfl⟩ := h'
    · cases hb
    · rfl

/-- A tag has only one buffer. -/
theorem Owns.buffer_eq (hinput : ¬ IsInput arrays out) (h : Owns arrays out b tag)
    (h' : Owns arrays out b' tag) :
  b = b'
  := by
  obtain ⟨a, ha, rfl, rfl⟩ | ⟨rfl, rfl⟩ := h
  · obtain ⟨a', -, rfl, htag⟩ | ⟨-, htag⟩ := h'
    · rw [Tag.input_inj.mp htag]
    · exact absurd ⟨a, ha, htag.symm⟩ hinput
  · obtain ⟨a', ha', -, htag⟩ | ⟨rfl, -⟩ := h'
    · exact absurd ⟨a', ha', htag⟩ hinput
    · rfl

/-- A ledger in which only the buffers of a rank are lent, each under its own tag, and the others
are held. -/
structure InOrder (arrays : List (Fin maxArray)) (out : Tag) (l : Ledger) : Prop where
  owns : ∀ tag t, l.lent.get? tag = some t → Owns arrays out t.buffer tag
  mem_held_iff : ∀ b tag, Owns arrays out b tag → (b ∈ l.held ↔ l.lent.get? tag = none)

namespace InOrder

/-- Every buffer of a rank is in one place. -/
theorem inOnePlace (hinput : ¬ IsInput arrays out) (h : InOrder arrays out l)
    (hb : Owns arrays out b tag) :
  l.InOnePlace b tag
  := by
  have honly : ∀ u t, l.lent.get? u = some t → t.buffer = b → u = tag := by
    rintro u t ht rfl
    apply (h.owns u t ht).tag_eq hb
  cases htag : l.lent.get? tag with
  | none =>
    apply Ledger.InOnePlace.held ((h.mem_held_iff b tag hb).mpr htag)
    intro u t ht htb
    rw [honly u t ht htb, htag] at ht
    cases ht
  | some t =>
    apply Ledger.InOnePlace.lent ⟨t, htag, (h.owns tag t htag).buffer_eq hinput hb⟩ _ honly
    rw [h.mem_held_iff b tag hb, htag]
    simp

/-- A transfer may be begun under the tag of its buffer if the tag is free. -/
theorem step_submit (hinput : ¬ IsInput arrays out) (h : InOrder arrays out l)
    (ht : Owns arrays out t.buffer tag) (hfree : l.lent.get? tag = none) :
  Ledger.Step l (.submit tag t) (l.begun tag t) ∧ InOrder arrays out (l.begun tag t)
  := by
  constructor
  · apply Ledger.Step.submit hfree ((h.mem_held_iff _ tag ht).mpr hfree)
  · constructor
    · intro u t' ht'
      rw [Ledger.get?_lent_begun] at ht'
      split at ht'
      · rename_i htag
        cases ht'
        rw [← htag]
        apply ht
      · apply h.owns u t' ht'
    · intro b u hb
      rw [Ledger.get?_lent_begun, Ledger.begun, Finset.mem_erase]
      split
      · rename_i htag
        subst htag
        simp [hb.buffer_eq hinput ht]
      · rename_i htag
        rw [h.mem_held_iff b u hb]
        apply and_iff_right
        rintro rfl
        apply htag (ht.tag_eq hb)

/-- A client may wait at any time. -/
theorem step_wait (hinput : ¬ IsInput arrays out) (h : InOrder arrays out l) (tag : Tag) :
  Ledger.Step l (.wait tag) (l.freed tag) ∧ InOrder arrays out (l.freed tag)
  := by
  use Ledger.Step.wait l tag
  constructor
  · intro u t ht
    rw [Ledger.get?_lent_freed] at ht
    split at ht
    · cases ht
    · apply h.owns u t ht
  · intro b u hb
    rw [Ledger.get?_lent_freed, Ledger.freed]
    cases htag : l.lent.get? tag with
    | none =>
      simp only [h.mem_held_iff b u hb]
      split
      · rename_i heq
        rw [← heq, htag]
      · rfl
    | some t =>
      have ht := h.owns tag t htag
      simp only [Finset.mem_insert, h.mem_held_iff b u hb]
      split
      · rename_i heq
        subst heq
        simp [hb.buffer_eq hinput ht]
      · rename_i hne
        apply or_iff_right
        rintro rfl
        apply hne (ht.tag_eq hb)

end InOrder

/-! ### Following the calls -/

/-- What a rank that reduces certain blocks keeps to when it makes a call: each of its buffers is in
one place; and if the call begins to store a block, then the block has been fetched and collected
for every array, and all blocks before it have been stored and collected. -/
structure Orderly (arrays : List (Fin maxArray)) (out : Tag) (blocks : List Span) (l : Ledger)
    (c : Call.Outline) : Prop where
  inOnePlace : ∀ b tag, Owns arrays out b tag → l.InOnePlace b tag
  inputs : ∀ s, c = storeCall out s → ∀ a ∈ arrays,
    Transfer.Outline.get a s (.staged a) ∈ l.collected
  stores : ∀ s, c = storeCall out s → ∀ s' ∈ blocks, s'.stop ≤ s.start →
    Transfer.Outline.put s' .out ∈ l.collected

/-- A call that doesn't begin to store a block is in order if the ledger is. -/
theorem InOrder.orderly {c : Call.Outline} (h : InOrder arrays out l)
    (hinput : ¬ IsInput arrays out) (hc : ∀ s, c ≠ storeCall out s) :
  Orderly arrays out blocks l c
  where
  inOnePlace _ _ hb := h.inOnePlace hinput hb
  inputs s hs := absurd hs (hc s)
  stores s hs := absurd hs (hc s)

theorem fetchCall_ne_storeCall (a : Fin maxArray) (s s' : Span) :
  fetchCall a s ≠ storeCall out s'
  := by
  simp [fetchCall, storeCall]

theorem wait_ne_storeCall (tag : Tag) (s : Span) :
  .wait tag ≠ storeCall out s
  := by
  simp [storeCall]

/-- What is in flight under the tags of the arrays. -/
abbrev ledgerStock : Stock Ledger :=
  .ofSlots Ledger.lent fun a next t => t = next.map fun s => .get a s (.staged a)

/-- A block of an array can be fetched when the tag of the array is free. -/
theorem runs_fetchCall (hinput : ¬ IsInput arrays out) (h : InOrder arrays out l) (ha : a ∈ arrays)
    (hfree : l.lent.get? (.input a) = none) (s : Span) :
  ∃ l', Ledger.Runs (Orderly arrays out blocks) l [fetchCall a s] l' ∧ InOrder arrays out l' ∧
    ledgerStock.SameOff (· = .input a) l l' ∧ ledgerStock.Holds l' a (some s) ∧
    l'.collected = l.collected
  := by
  obtain ⟨hstep, h'⟩ := h.step_submit (t := .get a s (.staged a)) hinput (.staged ha) hfree
  use l.begun (.input a) (.get a s (.staged a))
  constructor
  · apply Ledger.Runs.cons (h.orderly hinput (fetchCall_ne_storeCall a s)) hstep (.nil _)
  constructor
  · apply h'
  constructor
  · intro u hu
    rw [Ledger.get?_lent_begun, if_neg (Ne.symm hu)]
  constructor
  · apply Ledger.get?_lent_begun.trans (if_pos rfl)
  · rfl

/-- The first block of every array can be fetched. -/
theorem runs_primeCalls (hinput : ¬ IsInput arrays out) (h : InOrder arrays out l) (first : Span)
    (as : List (Fin maxArray)) (hnodup : as.Nodup) (has : ∀ a ∈ as, a ∈ arrays)
    (hfree : ∀ a ∈ as, ledgerStock.Holds l a none) :
  ∃ l', Ledger.Runs (Orderly arrays out blocks) l (as.map (fetchCall · first)) l' ∧
    InOrder arrays out l' ∧ ∀ a ∈ as, ledgerStock.Holds l' a (some first)
  := by
  have hturns := ledgerStock.turns (γ := Unit) none (some first) (fun l _ => InOrder arrays out l)
    (fun as _ l _ l' => Ledger.Runs (Orderly arrays out blocks) l (as.map (fetchCall · first)) l')
    (fun _ l => .nil l) as hnodup ?_ l () h hfree
  · obtain ⟨⟨⟩, l', hruns, h', -, hholds⟩ := hturns
    exact ⟨l', hruns, h', hholds⟩
  · intro a ha rest l _ h hfree
    obtain ⟨l₁, hruns, h₁, hsame, hholds, -⟩ := runs_fetchCall hinput h (has a ha) hfree first
    exact ⟨(), l₁, hsame, hholds, h₁, fun _ _ hrest => hruns.append hrest⟩

/-- One array has its turn: its block is collected, and its next block is fetched. -/
theorem runs_turnCalls (hinput : ¬ IsInput arrays out) (h : InOrder arrays out l) (ha : a ∈ arrays)
    {cur : Span} (hlent : ledgerStock.Holds l a (some cur)) (next : Option Span) :
  ∃ l', Ledger.Runs (Orderly arrays out blocks) l (turnCalls next a) l' ∧ InOrder arrays out l' ∧
    ledgerStock.SameOff (· = .input a) l l' ∧ ledgerStock.Holds l' a next ∧
    (∀ t ∈ l.collected, t ∈ l'.collected) ∧ .get a cur (.staged a) ∈ l'.collected
  := by
  obtain ⟨hstep, h₁⟩ := h.step_wait hinput (.input a)
  have hwait : Ledger.Runs (Orderly arrays out blocks) l [.wait (.input a)] (l.freed (.input a)) :=
    .cons (h.orderly hinput (wait_ne_storeCall _)) hstep (.nil _)
  have hfree : (l.freed (.input a)).lent.get? (.input a) = none := by
    rw [Ledger.get?_lent_freed, if_pos rfl]
  have hsame : ledgerStock.SameOff (· = .input a) l (l.freed (.input a)) := by
    intro u hu
    rw [Ledger.get?_lent_freed, if_neg (Ne.symm hu)]
  have hkept : ∀ t ∈ l.collected, t ∈ (l.freed (.input a)).collected :=
    fun t => Ledger.mem_collected_freed
  have hcur : .get a cur (.staged a) ∈ (l.freed (.input a)).collected :=
    Ledger.mem_collected_freed_of_lent hlent
  cases next with
  | none => exact ⟨l.freed (.input a), hwait, h₁, hsame, hfree, hkept, hcur⟩
  | some s =>
    obtain ⟨l', hruns, h', hsame', hholds, hcollected⟩ := runs_fetchCall hinput h₁ ha hfree s
    rw [← hcollected] at hkept hcur
    exact ⟨l', hwait.append hruns, h', ledgerStock.trans hsame hsame', hholds, hkept, hcur⟩

/-- All arrays have their turns. -/
theorem runs_flatMap_turnCalls (hinput : ¬ IsInput arrays out) (h : InOrder arrays out l)
    {cur : Span} (next : Option Span) (as : List (Fin maxArray)) (hnodup : as.Nodup)
    (has : ∀ a ∈ as, a ∈ arrays) (hlent : ∀ a ∈ as, ledgerStock.Holds l a (some cur)) :
  ∃ l', Ledger.Runs (Orderly arrays out blocks) l (as.flatMap (turnCalls next)) l' ∧
    InOrder arrays out l' ∧ ledgerStock.SameOff (IsInput as) l l' ∧
    (∀ a ∈ as, ledgerStock.Holds l' a next) ∧ (∀ t ∈ l.collected, t ∈ l'.collected) ∧
    ∀ a ∈ as, Transfer.Outline.get a cur (.staged a) ∈ l'.collected
  := by
  have hturns := ledgerStock.turns (γ := Unit) (some cur) next (fun l _ => InOrder arrays out l)
    (fun as _ l _ l' => Ledger.Runs (Orderly arrays out blocks) l (as.flatMap (turnCalls next)) l' ∧
      (∀ t ∈ l.collected, t ∈ l'.collected) ∧
      ∀ a ∈ as, Transfer.Outline.get a cur (.staged a) ∈ l'.collected)
    (fun _ l => ⟨.nil l, fun _ ht => ht, by simp⟩) as hnodup ?_ l () h hlent
  · obtain ⟨⟨⟩, l', ⟨hruns, hkept, hcollected⟩, h', hsame, hholds⟩ := hturns
    exact ⟨l', hruns, h', hsame, hholds, hkept, hcollected⟩
  · intro a ha rest l _ h hlent
    obtain ⟨l₁, hruns, h₁, hsame, hholds, hkept, hcur⟩ :=
      runs_turnCalls hinput h (has a ha) hlent next
    use (), l₁, hsame, hholds, h₁
    rintro _ l' ⟨hruns', hkept', hcollected⟩
    use hruns.append hruns', fun t ht => hkept' t (hkept t ht)
    intro b hb
    rcases List.mem_cons.mp hb with rfl | hb
    · apply hkept' _ hcur
    · apply hcollected b hb

/-- Of certain blocks, those that are not yet to come have been stored, the last one of them perhaps
without having been collected. -/
def Stored (out : Tag) (blocks todo : List Span) (l : Ledger) : Prop :=
  ∀ s ∈ blocks, s ∈ todo ∨ .put s .out ∈ l.collected ∨ l.lent.get? out = some (.put s .out)

/-- Once the outgoing tag is free, what has been stored has been collected. -/
theorem Stored.freed {todo : List Span} (h : Stored out blocks todo l) :
  ∀ s ∈ blocks, s ∈ todo ∨ .put s .out ∈ (l.freed out).collected
  := by
  intro s hs
  rcases h s hs with hs | hs | hs
  · exact .inl hs
  · exact .inr (Ledger.mem_collected_freed hs)
  · exact .inr (Ledger.mem_collected_freed_of_lent hs)

/-- Storing the next block leaves those behind it to come. -/
theorem Stored.begun {cur : Span} {rest : List Span}
    (h : ∀ s ∈ blocks, s ∈ cur :: rest ∨ .put s .out ∈ l.collected) :
  Stored out blocks rest (l.begun out (.put cur .out))
  := by
  intro s hs
  rcases h s hs with hs | hs
  · rcases List.mem_cons.mp hs with rfl | hs
    · exact .inr (.inr (Ledger.get?_lent_begun.trans (if_pos rfl)))
    · exact .inl hs
  · exact .inr (.inl hs)

/-- The call that begins to store a block is in order when the block has been fetched for every
array and all blocks that don't end behind its start have been stored. -/
theorem InOrder.orderly_storeCall (h : InOrder arrays out l) (hinput : ¬ IsInput arrays out)
    {cur : Span} {todo : List Span}
    (hfetched : ∀ a ∈ arrays, Transfer.Outline.get a cur (.staged a) ∈ l.collected)
    (hlater : ∀ s ∈ todo, cur.start < s.stop)
    (hstored : ∀ s ∈ blocks, s ∈ todo ∨ .put s .out ∈ l.collected) :
  Orderly arrays out blocks l (storeCall out cur)
  := by
  constructor
  · intro b tag hb
    apply h.inOnePlace hinput hb
  · intro s hs
    cases hs
    apply hfetched
  · intro s hs s' hs' hbefore
    cases hs
    apply (hstored s' hs').resolve_left
    intro hmem
    have := hlater s' hmem
    omega

/-- A block can be stored once it has been fetched for every array, if the blocks to come end behind
its start. -/
theorem runs_storeCall (hinput : ¬ IsInput arrays out) (h : InOrder arrays out l) {cur : Span}
    {rest : List Span}
    (hfetched : ∀ a ∈ arrays, Transfer.Outline.get a cur (.staged a) ∈ l.collected)
    (hlater : ∀ s ∈ cur :: rest, cur.start < s.stop) (hstored : Stored out blocks (cur :: rest) l) :
  ∃ l', Ledger.Runs (Orderly arrays out blocks) l [.wait out, storeCall out cur] l' ∧
    InOrder arrays out l' ∧ ledgerStock.SameOff (· = out) l l' ∧ Stored out blocks rest l'
  := by
  obtain ⟨hwait, h₁⟩ := h.step_wait hinput out
  have hfree : (l.freed out).lent.get? out = none := by
    rw [Ledger.get?_lent_freed, if_pos rfl]
  obtain ⟨hstore, h'⟩ := h₁.step_submit (t := .put cur .out) hinput .outgoing hfree
  have horderly := h₁.orderly_storeCall hinput
    (fun a ha => Ledger.mem_collected_freed (hfetched a ha)) hlater hstored.freed
  use (l.freed out).begun out (.put cur .out)
  constructor
  · exact .cons (h.orderly hinput (wait_ne_storeCall out)) hwait (.cons horderly hstore (.nil _))
  constructor
  · apply h'
  constructor
  · intro u hu
    rw [Ledger.get?_lent_begun, if_neg (Ne.symm hu), Ledger.get?_lent_freed, if_neg (Ne.symm hu)]
  · apply Stored.begun hstored.freed

/-- The calls of the loop can be made one after the other. -/
theorem runs_blockCalls (hinput : ¬ IsInput arrays out) (hnodup : arrays.Nodup) {start stop : Nat}
    (todo : List Span) (htiles : Span.Tiles start stop todo) (hne : ∀ s ∈ todo, 0 < s.length)
    (h : InOrder arrays out l) (hlent : ∀ a ∈ arrays, ledgerStock.Holds l a todo.head?)
    (hstored : Stored out blocks todo l) :
  ∃ l', Ledger.Runs (Orderly arrays out blocks) l (blockCalls arrays out todo) l' ∧
    InOrder arrays out l'
  := by
  -- Between two blocks, the next one is under way for every array, and those before it are stored.
  induction todo generalizing start l with
  | nil => exact ⟨l, .nil l, h⟩
  | cons cur rest ih =>
    have hlater : ∀ s ∈ cur :: rest, cur.start < s.stop := by
      intro s hs
      have := hne s hs
      have := (htiles.bounds hs).1
      cases htiles
      rw [Span.length] at *
      omega
    obtain ⟨l₁, hturns, h₁, hsame₁, hlent₁, hkept, hfetched⟩ :=
      runs_flatMap_turnCalls hinput h rest.head? arrays hnodup (fun _ ha => ha) hlent
    have hstored₁ : Stored out blocks (cur :: rest) l₁ := by
      intro s hs
      rw [hsame₁ out hinput]
      apply (hstored s hs).imp_right
      apply Or.imp_left (hkept _)
    obtain ⟨l₂, hstore, h₂, hsame₂, hstored₂⟩ :=
      runs_storeCall hinput h₁ hfetched hlater hstored₁
    have hlent₂ := Stock.holds_of_sameOff hinput hsame₂ hlent₁
    cases htiles with
    | cons hcur htiles =>
      obtain ⟨l', hruns, h'⟩ :=
        ih htiles (fun s hs => hne s (List.mem_cons_of_mem cur hs)) h₂ hlent₂ hstored₂
      exact ⟨l', hturns.append (hstore.append hruns), h'⟩

/-- The ledger of a rank that holds all of its buffers and has collected nothing. -/
def startLedger (arrays : List (Fin maxArray)) : Ledger :=
  ⟨insert .out (arrays.map fun a => .staged a).toFinset, .empty, []⟩

theorem inOrder_startLedger (arrays : List (Fin maxArray)) (out : Tag) :
  InOrder arrays out (startLedger arrays)
  := by
  constructor
  · intro tag t ht
    simp [startLedger] at ht
  · rintro b tag (⟨a, ha, rfl, rfl⟩ | ⟨rfl, rfl⟩)
    · simp only [startLedger, Finset.mem_insert, List.mem_toFinset, TagSlots.get?_empty, iff_true]
      exact .inr (List.mem_map_of_mem ha)
    · simp [startLedger]

/-- All calls can be made one after the other, and every buffer is in one place then. -/
theorem runs_calls (hinput : ¬ IsInput arrays out) (hnodup : arrays.Nodup) {start stop : Nat}
    (blocks : List Span) (htiles : Span.Tiles start stop blocks)
    (hne : ∀ s ∈ blocks, 0 < s.length) :
  ∃ l', Ledger.Runs (Orderly arrays out blocks) (startLedger arrays) (calls arrays out blocks) l' ∧
    ∀ b tag, Owns arrays out b tag → l'.InOnePlace b tag
  := by
  have h := inOrder_startLedger arrays out
  cases blocks with
  | nil => exact ⟨startLedger arrays, .nil _, fun _ _ => h.inOnePlace hinput⟩
  | cons first rest =>
    obtain ⟨l₁, hprime, h₁, hlent⟩ := runs_primeCalls hinput h first arrays hnodup
      (fun _ ha => ha) fun a _ => TagSlots.get?_empty (.input a)
    obtain ⟨l', hloop, h'⟩ := runs_blockCalls hinput hnodup (first :: rest) htiles hne h₁ hlent
      fun _ hs => .inl hs
    exact ⟨l', hprime.append hloop, fun _ _ => h'.inOnePlace hinput⟩

/-! ### Counting the calls -/

/-- If each array contributes calls for itself only, then the calls for one array are what this
array contributes. -/
theorem filterMap_fetched_flatMap {F : Fin maxArray → List Call.Outline} {blocks : List Span}
    (hF : ∀ b, (F b).filterMap (fetched a) = if b = a then blocks else []) (hnodup : as.Nodup)
    (ha : a ∈ as) :
  (as.flatMap F).filterMap (fetched a) = blocks
  := by
  induction as with
  | nil => cases ha
  | cons b rest ih =>
    obtain ⟨hb, hrest⟩ := List.nodup_cons.mp hnodup
    rw [List.flatMap_cons, List.filterMap_append, hF]
    split
    · rename_i hba
      subst hba
      have hothers : (rest.flatMap F).filterMap (fetched b) = [] := by
        rw [List.filterMap_flatMap, List.flatMap_eq_nil_iff]
        intro c hc
        rw [hF, if_neg (ne_of_mem_of_not_mem hc hb)]
      rw [hothers, List.append_nil]
    · rename_i hba
      rw [List.nil_append, ih hrest (List.mem_of_ne_of_mem (Ne.symm hba) ha)]

theorem filterMap_fetched_fetchCall (s : Span) (b : Fin maxArray) :
  [fetchCall b s].filterMap (fetched a) = if b = a then [s] else []
  := by
  rcases eq_or_ne b a with rfl | hba
  · simp [fetchCall, fetched]
  · simp [fetchCall, fetched, hba, Fin.val_ne_of_ne hba]

theorem filterMap_fetched_turnCalls (next : Option Span) (b : Fin maxArray) :
  (turnCalls next b).filterMap (fetched a) = if b = a then next.toList else []
  := by
  cases next with
  | none => simp [turnCalls, fetched]
  | some s => exact filterMap_fetched_fetchCall s b

/-- In the loop, all blocks but the first one are fetched for an array. -/
theorem filterMap_fetched_blockCalls (hnodup : arrays.Nodup) (ha : a ∈ arrays) (out : Tag)
    (todo : List Span) :
  (blockCalls arrays out todo).filterMap (fetched a) = todo.tail
  := by
  induction todo with
  | nil => rfl
  | cons cur rest ih =>
    have hloop :
        (.wait out :: storeCall out cur :: blockCalls arrays out rest).filterMap (fetched a)
          = rest.tail := ih
    rw [blockCalls, List.filterMap_append, hloop,
      filterMap_fetched_flatMap (filterMap_fetched_turnCalls rest.head?) hnodup ha]
    cases rest <;> rfl

/-- Every block is fetched once for every array. -/
theorem filterMap_fetched_calls (hnodup : arrays.Nodup) (ha : a ∈ arrays) (out : Tag)
    (blocks : List Span) :
  (calls arrays out blocks).filterMap (fetched a) = blocks
  := by
  cases blocks with
  | nil => rfl
  | cons first rest =>
    rw [calls, List.filterMap_append, filterMap_fetched_blockCalls hnodup ha, List.map_eq_flatMap,
      filterMap_fetched_flatMap (filterMap_fetched_fetchCall first) hnodup ha]
    rfl

theorem filterMap_stored_turnCalls (next : Option Span) (b : Fin maxArray) :
  (turnCalls next b).filterMap stored = []
  := by
  cases next <;> rfl

theorem filterMap_stored_blockCalls (arrays : List (Fin maxArray)) (out : Tag) (todo : List Span) :
  (blockCalls arrays out todo).filterMap stored = todo
  := by
  induction todo with
  | nil => rfl
  | cons cur rest ih =>
    have hturns : (arrays.flatMap (turnCalls rest.head?)).filterMap stored = [] := by
      rw [List.filterMap_flatMap, List.flatMap_eq_nil_iff]
      intro b _
      apply filterMap_stored_turnCalls
    rw [blockCalls, List.filterMap_append, hturns]
    exact congrArg (cur :: ·) ih

/-- Every block is stored once. -/
theorem filterMap_stored_calls (arrays : List (Fin maxArray)) (out : Tag) (blocks : List Span) :
  (calls arrays out blocks).filterMap stored = blocks
  := by
  cases blocks with
  | nil => rfl
  | cons first rest =>
    have hprime : (arrays.map (fetchCall · first)).filterMap stored = [] := by
      rw [List.filterMap_map, List.filterMap_eq_nil_iff]
      intro b _
      rfl
    rw [calls, List.filterMap_append, hprime, List.nil_append, filterMap_stored_blockCalls]

theorem countP_isSubmit_turnCalls (next : Option Span) (b : Fin maxArray) :
  (turnCalls next b).countP isSubmit = next.toList.length
  := by
  cases next <;> rfl

theorem countP_isSubmit_blockCalls (arrays : List (Fin maxArray)) (out : Tag) (todo : List Span) :
  (blockCalls arrays out todo).countP isSubmit
    = arrays.length * todo.tail.length + todo.length
  := by
  induction todo with
  | nil => rfl
  | cons cur rest ih =>
    have hturns : (arrays.flatMap (turnCalls rest.head?)).countP isSubmit
        = arrays.length * rest.head?.toList.length := by
      simp [List.countP_flatMap, Function.comp_def, countP_isSubmit_turnCalls]
    have hstore : (.wait out :: storeCall out cur :: blockCalls arrays out rest).countP isSubmit
        = (blockCalls arrays out rest).countP isSubmit + 1 := by
      rw [List.countP_cons_of_neg (by simp [isSubmit]), List.countP_cons_of_pos (by rfl)]
    rw [blockCalls, List.countP_append, hturns, hstore, ih]
    cases rest with
    | nil => rfl
    | cons s rest =>
      simp only [List.head?_cons, Option.toList_some, List.tail_cons, List.length_cons,
        List.length_nil]
      ring

/-- For every block, there are as many transfers as arrays, and one more. -/
theorem countP_isSubmit_calls (arrays : List (Fin maxArray)) (out : Tag) (blocks : List Span) :
  (calls arrays out blocks).countP isSubmit = (arrays.length + 1) * blocks.length
  := by
  cases blocks with
  | nil => rfl
  | cons first rest =>
    have hprime : (arrays.map (fetchCall · first)).countP isSubmit = arrays.length := by
      rw [List.countP_map, List.countP_eq_length]
      intro a _
      rfl
    rw [calls, List.countP_append, hprime, countP_isSubmit_blockCalls, List.tail_cons,
      List.length_cons]
    ring

/-! ### The whole discipline -/

/-- The discipline of calls that reduce certain blocks of certain arrays. -/
structure Disciplined (arrays : List (Fin maxArray)) (out : Tag) (blocks : List Span)
    (calls : List Call.Outline) : Prop where
  /-- For every array, the blocks are fetched in order, each of them once. -/
  fetched : ∀ a ∈ arrays, calls.filterMap (fetched a) = blocks
  /-- The blocks are stored in order, each of them once. -/
  stored : calls.filterMap stored = blocks
  increasing : blocks.Pairwise fun s t => s.start < t.start
  /-- There are no other transfers. -/
  count_eq : calls.countP isSubmit = (arrays.length + 1) * blocks.length
  /-- The calls can be made one after the other, starting with all buffers and nothing in flight.
  Every buffer is in one place at every call and at the end. -/
  orderly : ∃ l', Ledger.Runs (Orderly arrays out blocks) (startLedger arrays) calls l' ∧
    ∀ b tag, Owns arrays out b tag → l'.InOnePlace b tag

theorem disciplined_calls (hinput : ¬ IsInput arrays out) (hnodup : arrays.Nodup) {start stop : Nat}
    {blocks : List Span} (htiles : Span.Tiles start stop blocks)
    (hne : ∀ s ∈ blocks, 0 < s.length) :
  Disciplined arrays out blocks (calls arrays out blocks)
  where
  fetched _ ha := filterMap_fetched_calls hnodup ha out blocks
  stored := filterMap_stored_calls arrays out blocks
  increasing := htiles.pairwise_start_lt hne
  count_eq := countP_isSubmit_calls arrays out blocks
  orderly := runs_calls hinput hnodup blocks htiles hne

end Reducer

open Reducer

variable {σ : Type} [TransferEngine σ] {Accepts : Transfer → Prop}
variable {Parks : σ → Data → TagSlots Buffer → Prop}
variable {engine : σ} {data : Data} {parked : TagSlots Buffer}

/-- On every engine that accepts its transfers and hands their buffers back, the reducer comes to
its end, whatever range it is given. It makes the calls for the blocks of the range, and keeps to
the discipline. The run starts with all buffers in the slots that are carved out of the scratch
memory, and each buffer is in exactly one place at every call and at the end: in its slot, in the
hand of the rank, or in flight under its own tag. -/
theorem reduceRank_disciplined (ho : Obliging σ Accepts Parks) (range : Span) {nArray : Nat}
    (h₂ : 2 ≤ nArray) (hn : nArray ≤ maxArray) (scratch : Scratch) (hp : Parks engine data parked)
    (hfree : ∀ tag : Tag, tag.index.val ≤ nArray → parked.get? tag = none) {blocks : List Span}
    (hblocks : (range.blocks scratch.blockLen scratch.isBlockLen.1).toList = blocks)
    (haccepts : ∀ s ∈ blocks, ∀ b : Buffer, b.records.size = scratch.blockLen →
      (∀ a : Nat, a < nArray → Accepts (.get a s b)) ∧ Accepts (.put s b)) :
  ((reduceRank range nArray scratch).run.run engine data).1
      = .ok (.complete range scratch.blockLen) ∧
    Session.outlines (reduceRank range nArray scratch).run engine data
      = calls (arrays nArray) (.output ⟨nArray, Nat.lt_succ_of_le hn⟩) blocks ∧
    Disciplined (arrays nArray) (.output ⟨nArray, Nat.lt_succ_of_le hn⟩) blocks
      (Session.outlines (reduceRank range nArray scratch).run engine data) ∧
    ∃ start : Point,
      start.program (arrays nArray) (.output ⟨nArray, Nat.lt_succ_of_le hn⟩)
        = reduceRank range nArray scratch ∧
      start.slots = .carve scratch nArray ∧
      start.Goes (arrays nArray) (.output ⟨nArray, Nat.lt_succ_of_le hn⟩)
        (fun p engine data => ∃ parked', Parks engine data parked' ∧
          Tidy (arrays nArray) (.output ⟨nArray, Nat.lt_succ_of_le hn⟩) scratch.blockLen parked p
            parked')
        engine data
  := by
  subst hblocks
  obtain ⟨engine', data', hruns, houtlines⟩ :=
    makes_reduceRank ho range h₂ hn scratch hp hfree haccepts
  rw [hruns.run_eq, houtlines]
  use rfl, rfl
  constructor
  · apply disciplined_calls (not_isInput_output _) (nodup_arrays nArray) Span.blocks_tiles
    intro s hs
    exact (Blocks.length_of_mem_toList hs).1
  · apply goes_reduceRank ho range h₂ hn scratch hp hfree haccepts

/-- Three of the four records that a view shows of three arrays, taken from the first two arrays in
blocks of two, on the threaded engine. -/
theorem reduceRank_disciplined_two_blocks :
  ∃ (w : Window) (data : Data) (scratch : Scratch) (outlines : List Call.Outline),
    w = (View.mk 3 6 1 4 1).window ∧ data = Array.replicate 17 (Lanes.splat 1.5) ∧
    scratch = .blank 2 (by decide) ∧
    outlines = Session.outlines (reduceRank ⟨2, 5⟩ 2 scratch).run (Threaded.new w) data ∧
    ((reduceRank ⟨2, 5⟩ 2 scratch).run.run (Threaded.new w) data).1 = .ok ⟨⟨2, 5⟩, 2, 3⟩ ∧
    outlines =
      [fetchCall 0 ⟨2, 4⟩, fetchCall 1 ⟨2, 4⟩,
        .wait (.input 0), fetchCall 0 ⟨4, 5⟩, .wait (.input 1), fetchCall 1 ⟨4, 5⟩,
        .wait (.output 2), storeCall (.output 2) ⟨2, 4⟩,
        .wait (.input 0), .wait (.input 1), .wait (.output 2), storeCall (.output 2) ⟨4, 5⟩] ∧
    Disciplined (arrays 2) (.output 2) [⟨2, 4⟩, ⟨4, 5⟩] outlines
  := by
  let w := (View.mk 3 6 1 4 1).window
  let scratch := Scratch.blank 2 (by decide)
  have hrange : ∀ i ∈ Span.mk 2 5, i ∈ w.owned := by
    simp only [Span.mem_iff, w, View.window, View.owned]
    omega
  have hblocks : ((Span.mk 2 5).blocks scratch.blockLen scratch.isBlockLen.1).toList
      = [⟨2, 4⟩, ⟨4, 5⟩] := by
    rw [Blocks.toList_eq_cons rfl, Blocks.toList_eq_cons rfl, Blocks.toList_eq_nil rfl]
    rfl
  have haccepts := check_transfers scratch hrange (show 2 ≤ w.nArray by decide)
  rw [hblocks] at haccepts
  obtain ⟨hreport, houtlines, hdisciplined, -⟩ :=
    reduceRank_disciplined (Threaded.obliging w) ⟨2, 5⟩ (by decide) (by decide) scratch
      (Threaded.keeps_new w (Array.replicate 17 (Lanes.splat 1.5)))
      (fun tag _ => TagSlots.get?_empty tag) hblocks haccepts
  have hcomplete : RankReport.complete ⟨2, 5⟩ scratch.blockLen = ⟨⟨2, 5⟩, 2, 3⟩ :=
    show RankReport.complete ⟨2, 5⟩ 2 = ⟨⟨2, 5⟩, 2, 3⟩ by decide
  rw [hcomplete] at hreport
  exact ⟨w, _, scratch, _, rfl, rfl, rfl, rfl, hreport, houtlines.trans (by decide), hdisciplined⟩

end ReplicaSum
