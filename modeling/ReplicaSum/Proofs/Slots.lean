import ReplicaSum.Proofs.BlockSums

/-!
# The slots of the reducer

A rank fills the slots of its arrays before the first call, and empties each of them once, when it
begins to fetch the first block of the array. So it always finds a buffer there, and from then on it
only puts buffers back. What it does is therefore said without the slots of the arrays as well:
`Reducer.Bare` is the reducer with buffers made out of the scratch memory where they are needed, and
`reduceRank_eq_bare` says that the two are the same program.
-/

namespace ReplicaSum

namespace Reducer.Bare

/-- Begin to fetch the first block of every array. -/
def prime (scratch : Scratch) (first : Span) : List (Fin maxArray) → RankM Unit
  | [] => return
  | a :: rest => do
    RankM.beginGet (.input a) a first (scratch.stagedBuffer a)
    prime scratch first rest

/-- Begin to fetch the next block of array `a` into the buffer of its last one, if there is a
next block. -/
def refill (a : Fin maxArray) (next : Option Span) (buffer : Buffer) : RankM Unit :=
  match next with
  | some records => RankM.beginGet (.input a) a records buffer
  | none => return

/-- Take the current block of each array into the running sum, and refill its buffer at once. -/
def consume (len : Nat) (next : Option Span) : List (Fin maxArray) → BlockSum → RankM BlockSum
  | [], sum => return sum
  | a :: rest, sum => do
    let buffer ← RankM.insistPending (.input a) (← RankM.wait (.input a))
    let block ← RankM.insist (buffer.front len)
    let sum ← RankM.insist (absorb a block sum)
    refill a next buffer
    consume len next rest sum

/-- Round the running sum of a block and begin to store it. The result is the spare buffer. -/
def emit (tag : Tag) (records : Span) (sum : BlockSum) (spare : Option Buffer) :
    RankM (Option Buffer) := do
  let (chosen, spare) := chooseOut (← RankM.wait tag) spare
  let buffer ← RankM.insistPending tag chosen
  let filled ← RankM.insist (buffer.fill sum records.length)
  RankM.beginPut tag records filled
  return spare

/-- Reduce blocks whose first one has already been asked for. -/
def reduceBlocks (arrays : List (Fin maxArray)) (outTag : Tag) :
    List Span → BlockSum → Option Buffer → RankReport → RankM RankReport
  | [], _, _, report => return report
  | records :: rest, sum, spare, report => do
    let sum ← consume records.length rest.head? arrays sum
    let spare ← emit outTag records sum spare
    reduceBlocks arrays outTag rest sum spare (report.addBlock records.length)

/-- Ask for the first of the blocks, and reduce all of them. -/
def reduceAll (arrays : List (Fin maxArray)) (outTag : Tag) (blocks : List Span)
    (scratch : Scratch) (report : RankReport) : RankM RankReport :=
  match blocks with
  | [] => return report
  | first :: rest => do
    prime scratch first arrays
    reduceBlocks arrays outTag (first :: rest) scratch.sum (some scratch.outBuffer) report

end Reducer.Bare

/-! ### Slots -/

namespace Slots

variable {scratch : Scratch} {slots : Slots} {a b : Fin maxArray} {nArray : Nat}

/-- Every array that takes part finds a buffer in its slot. -/
theorem get_carve (ha : a.val < nArray) :
  (carve scratch nArray).get a = some (scratch.stagedBuffer a)
  := by
  have hchunk : (a.val + 1) * scratch.blockLen ≤ scratch.staged.size :=
    Nat.le_trans (Nat.mul_le_mul_right _ a.isLt) scratch.staged_size
  simp [get, carve, ha, hchunk]

/-- The slots of the other arrays are empty. -/
theorem get_carve_of_not_lt (ha : ¬ a.val < nArray) :
  (carve scratch nArray).get a = none
  := by
  simp [get, carve, ha]

theorem get_take :
  (slots.take a).2.get b = if a = b then none else slots.get b
  := by
  simp [get, take, Vector.getElem_set, Fin.ext_iff]

theorem get_put {buffer : Buffer} :
  (slots.put a buffer).get b = if a = b then some buffer else slots.get b
  := by
  simp [get, put, Vector.getElem_set, Fin.ext_iff]

end Slots

/-! ### The same program -/

namespace Reducer

variable {β : Type} {scratch : Scratch} {slots : Slots} {a : Fin maxArray} {len : Nat}
variable {next : Option Span} {as : List (Fin maxArray)}

/-- Priming finds the buffers in their slots. What comes after it may depend on the spare buffer for
the outgoing block, but on no other slot. -/
theorem bind_prime {k : Slots → RankM β} {m : RankM β} (first : Span) (hnodup : as.Nodup)
    (hheld : ∀ a ∈ as, slots.get a = some (scratch.stagedBuffer a))
    (hk : ∀ slots', slots'.out = slots.out → k slots' = m) :
  (prime first as slots >>= k) = (Bare.prime scratch first as >>= fun _ => m)
  := by
  induction as generalizing slots with
  | nil => rw [prime, Bare.prime, pure_bind, pure_bind, hk slots rfl]
  | cons a rest ih =>
    obtain ⟨ha, hrest⟩ := List.nodup_cons.mp hnodup
    have hslot : (slots.take a).1 = some (scratch.stagedBuffer a) := hheld a List.mem_cons_self
    have hothers : ∀ b ∈ rest, (slots.take a).2.get b = some (scratch.stagedBuffer b) := by
      intro b hb
      rw [Slots.get_take, if_neg (ne_of_mem_of_not_mem hb ha).symm]
      apply hheld b (List.mem_cons_of_mem a hb)
    simp only [prime, Bare.prime, hslot, RankM.insistHeld, pure_bind, bind_assoc]
    rw [ih hrest hothers hk]

/-- Refilling puts at most a buffer of an array into its slot. -/
theorem bind_refill {k : Slots → RankM β} {m : RankM β} (buffer : Buffer)
    (hk : ∀ slots', slots'.out = slots.out → k slots' = m) :
  (refill a next buffer slots >>= k) = (Bare.refill a next buffer >>= fun _ => m)
  := by
  cases next with
  | none => simp only [refill, Bare.refill, pure_bind, hk (slots.put a buffer) rfl]
  | some records => simp only [refill, Bare.refill, bind_assoc, pure_bind, hk slots rfl]

theorem bind_consume {k : BlockSum × Slots → RankM β} {k' : BlockSum → RankM β} (sum : BlockSum)
    (hk : ∀ sum slots', slots'.out = slots.out → k (sum, slots') = k' sum) :
  (consume len next as sum slots >>= k) = (Bare.consume len next as sum >>= k')
  := by
  induction as generalizing sum slots with
  | nil => rw [consume, Bare.consume, pure_bind, pure_bind, hk sum slots rfl]
  | cons a rest ih =>
    simp only [consume, Bare.consume, bind_assoc]
    apply bind_congr
    intro reply
    apply bind_congr
    intro buffer
    apply bind_congr
    intro block
    apply bind_congr
    intro sum
    apply bind_refill
    intro slots' hout
    apply ih sum
    intro sum' slots'' hout'
    apply hk sum' slots'' (hout'.trans hout)

theorem bind_emit {k : Slots → RankM β} {k' : Option Buffer → RankM β} (tag : Tag) (records : Span)
    (sum : BlockSum) (hk : ∀ slots', k slots' = k' slots'.out) :
  (emit tag records sum slots >>= k) = (Bare.emit tag records sum slots.out >>= k')
  := by
  simp only [emit, Bare.emit, bind_assoc, pure_bind, hk]

/-- In the loop, only the slot of the spare buffer is looked at. -/
theorem reduceBlocks_eq_bare (arrays : List (Fin maxArray)) (outTag : Tag) (blocks : List Span)
    (sum : BlockSum) (slots : Slots) (report : RankReport) :
  reduceBlocks arrays outTag blocks sum slots report
    = Bare.reduceBlocks arrays outTag blocks sum slots.out report
  := by
  induction blocks generalizing sum slots report with
  | nil => rfl
  | cons records rest ih =>
    rw [reduceBlocks, Bare.reduceBlocks]
    apply bind_consume
    intro sum slots' hout
    rw [← hout]
    apply bind_emit
    intro slots''
    apply ih

/-- The reducer is the one without slots. -/
theorem reduceAll_eq_bare {arrays : List (Fin maxArray)} (hnodup : arrays.Nodup) {nArray : Nat}
    (hlt : ∀ a ∈ arrays, a.val < nArray) (outTag : Tag) (blocks : List Span) (scratch : Scratch)
    (report : RankReport) :
  reduceAll arrays outTag blocks scratch.sum (.carve scratch nArray) report
    = Bare.reduceAll arrays outTag blocks scratch report
  := by
  cases blocks with
  | nil => rfl
  | cons first rest =>
    apply bind_prime first hnodup
    · intro a ha
      apply Slots.get_carve (hlt a ha)
    · intro slots hout
      rw [reduceBlocks_eq_bare, hout]
      rfl

end Reducer

/-- What a rank does, said without the slots of its arrays. -/
theorem reduceRank_eq_bare (range : Span) {nArray : Nat} (h₂ : 2 ≤ nArray) (hn : nArray ≤ maxArray)
    (scratch : Scratch) :
  reduceRank range nArray scratch
    = Reducer.Bare.reduceAll (Reducer.arrays nArray) (.output ⟨nArray, Nat.lt_succ_of_le hn⟩)
        (range.blocks scratch.blockLen scratch.isBlockLen.1).toList scratch (.empty range)
  := by
  rw [reduceRank, dif_pos ⟨h₂, hn⟩]
  apply Reducer.reduceAll_eq_bare (Reducer.nodup_arrays nArray)
  intro a ha
  apply Reducer.mem_arrays.mp ha

end ReplicaSum
