import ReplicaSum.BlockSum
import Mathlib.Data.List.DropRight
import Mathlib.Data.List.Induction

/-!
# What a running sum remembers

A running sum is used again and again, by calls that may be shorter than it is. The entries that a
call doesn't reach keep what they held, so each lane of each entry has a history of its own: the
calls that reached it, with the value that each of them brought along. The main statement says that
a lane holds what its history tells, whatever the calls did elsewhere, and that this is what
demotions round.
-/

namespace ReplicaSum

/-! ### Calls -/

/-- A call on a running sum. -/
inductive SumCall where
  /-- Put the promotions of the records into the front of the sum. -/
  | promote (src : Array Record)
  /-- Add the promotions of the records to the front of the sum. -/
  | accumulate (src : Array Record)
  /-- Replace each record of the target by the demotion of an entry of the sum. -/
  | demote (target : Array Record)

namespace SumCall

/-- The number of entries that a call reaches. -/
def length : SumCall → Nat
  | .promote src => src.size
  | .accumulate src => src.size
  | .demote target => target.size

/-- Make a call: the sum and, if there is one, the target afterwards. -/
def perform (sum : BlockSum) : SumCall → Except Violation (BlockSum × Option (Array Record))
  | .promote src => (sum.promote src).map fun sum => (sum, none)
  | .accumulate src => (sum.accumulate src).map fun sum => (sum, none)
  | .demote target => (sum.demote target.size).map fun target => (sum, some target)

/-- Make calls, one after the other: the sum afterwards, and for each call its target. -/
def performAll (sum : BlockSum) :
    List SumCall → Except Violation (BlockSum × List (Option (Array Record)))
  | [] => .ok (sum, [])
  | call :: calls =>
    match call.perform sum with
    | .error cause => .error cause
    | .ok (sum, target) => (performAll sum calls).map fun (sum, targets) => (sum, target :: targets)

end SumCall

/-! ### Histories -/

/-- What a call does to a lane that it reaches. -/
inductive LaneCall where
  /-- The lane is overwritten. -/
  | seed (x : Float)
  /-- Something is added to the lane. -/
  | add (x : Float)

namespace LaneCall

/-- The value that a lane is overwritten with. -/
def seed? : LaneCall → Option Float
  | .seed x => some x
  | .add _ => none

/-- The value that is added to a lane. -/
def add? : LaneCall → Option Float
  | .seed _ => none
  | .add x => some x

end LaneCall

/-- What a lane holds after a history, if it held `initial` before: the value that it was
overwritten with last, or else `initial`, and what was added since then, in its order. -/
def laneAfter (initial : Float) (history : List LaneCall) : Float :=
  ((history.rtakeWhile fun c => c.seed?.isNone).filterMap LaneCall.add?).foldl (· + ·)
    ((history.reverse.findSome? LaneCall.seed?).getD initial)

/-- What a call does to lane `k` of field `f` of entry `j`, if it reaches that entry. -/
def SumCall.atLane (j : Nat) (f : Fin nFields) (k : Fin nLanes) : SumCall → Option LaneCall
  | .promote src => src[j]?.map fun record => .seed (record.lane f k).toFloat
  | .accumulate src => src[j]?.map fun record => .add (record.lane f k).toFloat
  | .demote _ => none

/-- The history of lane `k` of field `f` of entry `j`. -/
def laneHistory (j : Nat) (f : Fin nFields) (k : Fin nLanes) (calls : List SumCall) :
    List LaneCall :=
  calls.filterMap (SumCall.atLane j f k)

/-- The value in lane `k` of field `f` of entry `j` of an array of grids. -/
def laneAt? {α : Type} (xs : Array (Lanes α)) (j : Nat) (f : Fin nFields) (k : Fin nLanes) :
    Option α :=
  xs[j]?.map fun x => x.lane f k

@[simp]
theorem laneAfter_nil (initial : Float) :
  laneAfter initial [] = initial
  := rfl

theorem laneAfter_concat_seed (initial x : Float) (history : List LaneCall) :
  laneAfter initial (history ++ [.seed x]) = x
  := by
  rw [laneAfter, List.rtakeWhile_concat, List.reverse_concat]
  rfl

theorem laneAfter_concat_add (initial x : Float) (history : List LaneCall) :
  laneAfter initial (history ++ [.add x]) = laneAfter initial history + x
  := by
  rw [laneAfter, List.rtakeWhile_concat, if_pos (by rfl), List.filterMap_append,
    List.foldl_append, List.reverse_concat]
  rfl

/-- A history goes on from what the lane holds. -/
theorem laneAfter_append (initial : Float) (earlier later : List LaneCall) :
  laneAfter initial (earlier ++ later) = laneAfter (laneAfter initial earlier) later
  := by
  induction later using List.reverseRecOn with
  | nil => rw [List.append_nil, laneAfter_nil]
  | append_singleton later c ih =>
    rw [← List.append_assoc]
    cases c with
    | seed x => rw [laneAfter_concat_seed, laneAfter_concat_seed]
    | add x => rw [laneAfter_concat_add, laneAfter_concat_add, ih]

theorem laneHistory_singleton (j : Nat) (f : Fin nFields) (k : Fin nLanes) (call : SumCall) :
  laneHistory j f k [call] = (call.atLane j f k).toList
  := by
  rw [laneHistory, List.filterMap_cons]
  cases call.atLane j f k with
  | none => rfl
  | some c => rfl

/-- What a lane holds after calls and the one before them. -/
theorem laneAfter_laneHistory_cons (initial : Float) (j : Nat) (f : Fin nFields) (k : Fin nLanes)
    (call : SumCall) (calls : List SumCall) :
  laneAfter initial (laneHistory j f k (call :: calls))
    = laneAfter (laneAfter initial (laneHistory j f k [call])) (laneHistory j f k calls)
  := by
  have hhistory : laneHistory j f k (call :: calls)
      = laneHistory j f k [call] ++ laneHistory j f k calls :=
    List.filterMap_append (l := [call])
  rw [hhistory, laneAfter_append]

/-! ### A single call -/

/-- The sum and the targets after calls. Each lane of the sum holds what its history tells, and each
demotion has given all of its target what the lanes held at that time. -/
structure Remembers (sum : BlockSum) (calls : List SumCall) (sum' : BlockSum)
    (targets : List (Option (Array Record))) : Prop where
  size_eq : sum'.size = sum.size
  lane : ∀ j f k, laneAt? sum' j f k
    = (laneAt? sum j f k).map fun x => laneAfter x (laneHistory j f k calls)
  length_targets : targets.length = calls.length
  demoted : ∀ (i : Nat) target, calls[i]? = some (.demote target) →
    ∃ out, targets[i]? = some (some out) ∧ out.size = target.size ∧
      ∀ j < target.size, ∀ f k, laneAt? out j f k
        = (laneAt? sum j f k).map fun x =>
          (laneAfter x (laneHistory j f k (calls.take i))).toFloat32

namespace SumCall

variable {sum sum' : BlockSum} {call : SumCall} {calls : List SumCall}

theorem perform_eq_error (h : sum.size < call.length) :
  call.perform sum = .error .sumTooShort
  := by
  cases call with
  | promote src => exact congrArg (Except.map _) (if_pos h)
  | accumulate src => exact congrArg (Except.map _) (if_pos h)
  | demote target => exact congrArg (Except.map _) (if_pos h)

theorem laneAt?_promote {src : Array Record} (h : sum.promote src = .ok sum')
    (hlen : src.size ≤ sum.size) (j : Nat) (f : Fin nFields) (k : Fin nLanes) :
  laneAt? sum' j f k
    = (laneAt? sum j f k).map fun x => laneAfter x (laneHistory j f k [.promote src])
  := by
  rw [laneAt?, laneAt?, BlockSum.getElem?_promote h, laneHistory_singleton, atLane]
  cases hrecord : src[j]? with
  | none => exact Option.map_id'.symm
  | some record =>
    obtain ⟨hj, -⟩ := Array.getElem?_eq_some_iff.mp hrecord
    rw [Array.getElem?_eq_getElem (Nat.lt_of_lt_of_le hj hlen)]
    exact congrArg some (Lanes.lane_promote record f k)

theorem laneAt?_accumulate {src : Array Record} (h : sum.accumulate src = .ok sum') (j : Nat)
    (f : Fin nFields) (k : Fin nLanes) :
  laneAt? sum' j f k
    = (laneAt? sum j f k).map fun x => laneAfter x (laneHistory j f k [.accumulate src])
  := by
  rw [laneAt?, laneAt?, BlockSum.getElem?_accumulate h, laneHistory_singleton, atLane]
  cases src[j]? with
  | none => exact Option.map_id'.symm
  | some record =>
    cases sum[j]? with
    | none => rfl
    | some wide => exact congrArg some (Lanes.lane_addPromoted wide record f k)

theorem laneAt?_demote {len : Nat} {out : Array Record} (h : sum.demote len = .ok out) {j : Nat}
    (hj : j < len) (f : Fin nFields) (k : Fin nLanes) :
  laneAt? out j f k = (laneAt? sum j f k).map Float.toFloat32
  := by
  rw [laneAt?, laneAt?, BlockSum.getElem?_demote h, if_pos hj]
  cases sum[j]? with
  | none => rfl
  | some wide => exact congrArg some (Lanes.lane_demote wide f k)

/-- What a call does that the sum is long enough for. -/
theorem perform_eq_ok (h : call.length ≤ sum.size) :
  ∃ sum' target?, call.perform sum = .ok (sum', target?) ∧
    Remembers sum [call] sum' [target?]
  := by
  cases call with
  | promote src =>
    obtain ⟨sum', hsum'⟩ := BlockSum.exists_promote h
    use sum', none, congrArg (Except.map _) hsum'
    constructor
    · exact BlockSum.size_promote hsum'
    · exact laneAt?_promote hsum' h
    · rfl
    · intro i target hi
      cases List.mem_singleton.mp (List.mem_of_getElem? hi)
  | accumulate src =>
    obtain ⟨sum', hsum'⟩ := BlockSum.exists_accumulate h
    use sum', none, congrArg (Except.map _) hsum'
    constructor
    · exact BlockSum.size_accumulate hsum'
    · exact laneAt?_accumulate hsum'
    · rfl
    · intro i target hi
      cases List.mem_singleton.mp (List.mem_of_getElem? hi)
  | demote target =>
    obtain ⟨out, hout⟩ := BlockSum.exists_demote h
    use sum, some out, congrArg (Except.map _) hout
    constructor
    · rfl
    · intro j f k
      rw [laneHistory_singleton]
      exact Option.map_id'.symm
    · rfl
    · intro i target' hi
      obtain ⟨hlt, hget⟩ := List.getElem?_eq_some_iff.mp hi
      obtain rfl : i = 0 := Nat.lt_one_iff.mp hlt
      cases hget
      exact ⟨out, rfl, BlockSum.size_demote hout, fun j hj f k => laneAt?_demote hout hj f k⟩

end SumCall

/-! ### Many calls -/

namespace Remembers

variable {sum sum₁ sum₂ : BlockSum} {call : SumCall} {calls : List SumCall}
variable {target? : Option (Array Record)} {targets : List (Option (Array Record))}

theorem nil (sum : BlockSum) :
  Remembers sum [] sum []
  where
  size_eq := rfl
  lane _ _ _ := Option.map_id'.symm
  length_targets := rfl
  demoted _ _ hi := by cases hi

/-- What is remembered of calls and the one before them. -/
theorem cons (h : Remembers sum [call] sum₁ [target?]) (hs : Remembers sum₁ calls sum₂ targets) :
  Remembers sum (call :: calls) sum₂ (target? :: targets)
  where
  size_eq := hs.size_eq.trans h.size_eq
  lane j f k := by
    rw [hs.lane, h.lane, Option.map_map]
    congr 1
    funext x
    exact (laneAfter_laneHistory_cons x j f k call calls).symm
  length_targets := congrArg Nat.succ hs.length_targets
  demoted i target hi := by
    cases i with
    | zero => exact h.demoted 0 target hi
    | succ i =>
      obtain ⟨out, hout, hsize, hlanes⟩ := hs.demoted i target hi
      refine ⟨out, hout, hsize, ?_⟩
      intro j hj f k
      rw [hlanes j hj, h.lane, Option.map_map]
      congr 1
      funext x
      exact congrArg Float.toFloat32 (laneAfter_laneHistory_cons x j f k call _).symm

end Remembers

namespace SumCall

variable {sum : BlockSum} {calls : List SumCall}

theorem performAll_eq_error (h : ∃ call ∈ calls, sum.size < call.length) :
  performAll sum calls = .error .sumTooShort
  := by
  induction calls generalizing sum with
  | nil => simp at h
  | cons call calls ih =>
    rw [performAll]
    rcases Nat.lt_or_ge sum.size call.length with hlt | hle
    · rw [perform_eq_error hlt]
    · obtain ⟨sum', target?, hperform, hmade⟩ := perform_eq_ok hle
      rw [hperform]
      simp only
      rw [ih]
      · rfl
      · obtain ⟨call', hmem, hlt⟩ := h
        rw [hmade.size_eq]
        rcases List.mem_cons.mp hmem with rfl | hmem
        · omega
        · exact ⟨call', hmem, hlt⟩

theorem performAll_eq_ok (h : ∀ call ∈ calls, call.length ≤ sum.size) :
  ∃ sum' targets, performAll sum calls = .ok (sum', targets) ∧ Remembers sum calls sum' targets
  := by
  induction calls generalizing sum with
  | nil => exact ⟨sum, [], rfl, .nil sum⟩
  | cons call calls ih =>
    obtain ⟨sum₁, target?, hperform, hmade⟩ := perform_eq_ok (h call List.mem_cons_self)
    have hrest : ∀ call' ∈ calls, call'.length ≤ sum₁.size := by
      intro call' hmem
      rw [hmade.size_eq]
      exact h call' (List.mem_cons_of_mem call hmem)
    obtain ⟨sum₂, targets, hperformAll, hremembers⟩ := ih hrest
    use sum₂, target? :: targets
    constructor
    · rw [performAll, hperform]
      simp only
      rw [hperformAll]
      rfl
    · exact hmade.cons hremembers

/-- Calls that a sum is long enough for are all made. Each lane holds then what it held before, or
the value that it was overwritten with last, and what was added to it since. Calls of which one
reaches beyond the sum end with a violation. -/
theorem performAll_remembers (sum : BlockSum) (calls : List SumCall) :
  ((∀ call ∈ calls, call.length ≤ sum.size) →
      ∃ sum' targets, performAll sum calls = .ok (sum', targets) ∧
        Remembers sum calls sum' targets)
    ∧ ((∃ call ∈ calls, sum.size < call.length) → performAll sum calls = .error .sumTooShort)
  := ⟨performAll_eq_ok, performAll_eq_error⟩

/-- Calls of different lengths on a sum with three entries. The first entry is overwritten twice,
the second one once, and the third one is never reached. -/
theorem performAll_remembers_three_entries :
  ∃ (sum : BlockSum) (calls : List SumCall) (a b c d e : Record),
    sum = #[Lanes.wideZero, Lanes.wideZero, Lanes.splat 9.0] ∧
    calls = [.promote #[a, b], .accumulate #[c], .demote #[Lanes.zero, Lanes.zero],
      .promote #[d], .accumulate #[e, e]] ∧
    a = Lanes.splat 1.5 ∧ b = Lanes.splat 2.5 ∧ c = Lanes.splat 0.25 ∧ d = Lanes.splat 3.5 ∧
    e = Lanes.splat 0.75 ∧
    (∀ call ∈ calls, call.length ≤ sum.size) ∧
    (∃ sum' targets, performAll sum calls = .ok (sum', targets) ∧
      laneAt? sum' 0 0 0 = some (Float32.toFloat 3.5 + Float32.toFloat 0.75) ∧
      laneAt? sum' 1 0 0 = some (Float32.toFloat 2.5 + Float32.toFloat 0.75) ∧
      laneAt? sum' 2 0 0 = some 9.0 ∧
      ∃ out, targets[2]? = some (some out) ∧ out.size = 2 ∧
        laneAt? out 0 0 0 = some (Float32.toFloat 1.5 + Float32.toFloat 0.25).toFloat32) ∧
    (∃ call ∈ [SumCall.accumulate #[a, b], .promote #[a, b, c, d]], sum.size < call.length) ∧
    performAll sum [.accumulate #[a, b], .promote #[a, b, c, d]] = .error .sumTooShort
  := by
  obtain ⟨hok, -⟩ := performAll_remembers #[Lanes.wideZero, Lanes.wideZero, Lanes.splat 9.0]
    [.promote #[Lanes.splat 1.5, Lanes.splat 2.5], .accumulate #[Lanes.splat 0.25],
      .demote #[Lanes.zero, Lanes.zero], .promote #[Lanes.splat 3.5],
      .accumulate #[Lanes.splat 0.75, Lanes.splat 0.75]]
  obtain ⟨-, hviolated⟩ := performAll_remembers
    #[Lanes.wideZero, Lanes.wideZero, Lanes.splat 9.0]
    [.accumulate #[Lanes.splat 1.5, Lanes.splat 2.5],
      .promote #[Lanes.splat 1.5, Lanes.splat 2.5, Lanes.splat 0.25, Lanes.splat 3.5]]
  obtain ⟨sum', targets, hperformAll, hremembers⟩ := hok (by decide)
  obtain ⟨out, hout, hsize, hlanes⟩ := hremembers.demoted 2 _ rfl
  refine ⟨_, _, _, _, _, _, _, rfl, rfl, rfl, rfl, rfl, rfl, rfl, by decide,
    ⟨sum', targets, hperformAll, hremembers.lane 0 0 0, hremembers.lane 1 0 0,
      hremembers.lane 2 0 0, out, hout, hsize, hlanes 0 (by decide) 0 0⟩, ?_, ?_⟩
  · exact ⟨_, .tail _ (.head _), by decide⟩
  · exact hviolated ⟨_, .tail _ (.head _), by decide⟩

end SumCall

end ReplicaSum
