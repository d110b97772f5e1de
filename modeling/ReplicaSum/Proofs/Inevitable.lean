import Mathlib.Data.DFinsupp.WellFounded
import Mathlib.Logic.Relation
import Mathlib.Tactic.Common

/-!
# Inevitable outcomes

A concurrent system is a relation between states: from a state, any of its steps may be the next
one. `Inevitably step Q s` says that every execution from `s` comes to an end and that `Q` holds
wherever one ends. Independent systems that are run side by side keep their inevitable outcomes, and
a system that is simulated by another one inherits them.
-/

namespace ReplicaSum

variable {S T : Type} {step : S → S → Prop} {P Q : S → Prop} {s t : S}

/-- Every execution from a state comes to an end, in a state that satisfies `Q`. -/
inductive Inevitably (step : S → S → Prop) (Q : S → Prop) : S → Prop where
  | intro {s : S} (next : ∀ t, step s t → Inevitably step Q t)
      (ended : (∀ t, ¬ step s t) → Q s) : Inevitably step Q s

namespace Inevitably

theorem next (h : Inevitably step Q s) (hst : step s t) :
  Inevitably step Q t
  := by
  cases h with
  | intro next ended => exact next t hst

theorem ended (h : Inevitably step Q s) (hs : ∀ t, ¬ step s t) :
  Q s
  := by
  cases h with
  | intro next ended => exact ended hs

theorem mono (h : Inevitably step P s) (hPQ : ∀ t, P t → Q t) :
  Inevitably step Q s
  := by
  induction h with
  | intro _ ended ih =>
    apply intro ih
    intro hs
    apply hPQ _ (ended hs)

/-- There is no infinite execution. -/
theorem acc (h : Inevitably step Q s) :
  Acc (fun t s => step s t) s
  := by
  induction h with
  | intro _ _ ih => exact Acc.intro _ ih

/-- An outcome is inevitable just if no execution is infinite and every execution that has come to
an end has led to it. -/
theorem iff_acc_and_reachable :
  Inevitably step Q s
    ↔ Acc (fun t s => step s t) s
      ∧ ∀ t, Relation.ReflTransGen step s t → (∀ u, ¬ step t u) → Q t
  := by
  constructor
  · intro h
    use h.acc
    intro t hst
    induction hst using Relation.ReflTransGen.head_induction_on with
    | refl => exact h.ended
    | head hstep _ ih => exact ih (h.next hstep)
  · rintro ⟨hacc, hend⟩
    induction hacc with
    | intro s _ ih =>
      constructor
      · intro t hst
        apply ih t hst
        intro u htu
        apply hend u (.head hst htu)
      · apply hend s .refl

/-! ### Simulation -/

/-- If every step of a system is matched by a step of another one, and the first is only stuck where
the second is, then the first ends like the second. -/
theorem simulate {step' : T → T → Prop} {Q : T → Prop} {R : S → T → Prop}
    (hstep : ∀ s t x, R s x → step s t → ∃ y, step' x y ∧ R t y)
    (hstuck : ∀ s x y, R s x → step' x y → ∃ t, step s t)
    {x : T} (h : Inevitably step' Q x) (hR : R s x) :
  Inevitably step (fun s => ∃ x, R s x ∧ Q x) s
  := by
  induction h generalizing s with
  | @intro x _ ended ih =>
    constructor
    · intro t hst
      obtain ⟨y, hxy, hR'⟩ := hstep s t x hR hst
      apply ih y hxy hR'
    · intro hs
      use x, hR
      apply ended
      intro y hxy
      obtain ⟨t, hst⟩ := hstuck s x y hR hxy
      apply hs t hst

/-- If every step of a system, seen through `f`, is one of another system, or is internal and takes
some of the slack that there is for internal steps in a row, then the first ends like the second. -/
theorem abstract {step' : T → T → Prop} {Q : T → Prop} {I : S → Prop} (f : S → T) (slack : S → Nat)
    (hstep : ∀ s t, I s → step s t →
      I t ∧ (step' (f s) (f t) ∨ (f t = f s ∧ slack t < slack s)))
    (hstuck : ∀ s, I s → (∃ t, step s t) ∨ (P s ∧ ∀ y, ¬ step' (f s) y))
    (hI : I s) (h : Inevitably step' Q (f s)) :
  Inevitably step (fun s => I s ∧ P s ∧ Q (f s)) s
  := by
  generalize hx : f s = x at h
  induction h generalizing s with
  | @intro x _ ended ih =>
    generalize hn : slack s = n
    induction n using Nat.strongRecOn generalizing s with
    | ind n ih' =>
      constructor
      · intro t hst
        obtain ⟨hI', hmatch | ⟨hsame, hlt⟩⟩ := hstep s t hI hst
        · rw [hx] at hmatch
          apply ih _ hmatch hI' rfl
        · rw [hn] at hlt
          apply ih' _ hlt hI' (hsame.trans hx) rfl
      · intro hs
        rcases hstuck s hI with ⟨t, hst⟩ | ⟨hP, hnone⟩
        · exact absurd hst (hs t)
        · rw [hx] at hnone
          use hI, hP
          rw [hx]
          apply ended hnone

/-! ### Independent systems -/

section Family

variable {ι : Type} [LinearOrder ι] [Finite ι] {x y : ι → S}

/-- One member of a family of systems takes a step, and the others stay where they are. -/
def StepOne (step : S → S → Prop) (x y : ι → S) : Prop :=
  ∃ i, step (x i) (y i) ∧ ∀ j, j ≠ i → y j = x j

/-- Systems of which none has an infinite execution have none side by side either. -/
theorem acc_stepOne (h : ∀ i, Acc (fun t s => step s t) (x i)) :
  Acc (fun y x => StepOne step x y) x
  := by
  -- The steps of a family decrease it lexicographically, among families of states without infinite
  -- executions.
  have hwf : WellFounded
      fun y x : { s : S // Acc (fun t s => step s t) s } => step x.val y.val := by
    constructor
    rintro ⟨s, hs⟩
    induction hs with
    | intro s _ ih =>
      constructor
      rintro ⟨t, ht⟩ hst
      apply ih t hst
  have hlex := (Pi.Lex.wellFounded (· < · : ι → ι → Prop) fun _ => hwf).apply fun i => ⟨x i, h i⟩
  generalize hx : (fun i => (⟨x i, h i⟩ : { s : S // Acc (fun t s => step s t) s })) = x' at hlex
  induction hlex generalizing x with
  | intro x' _ ih =>
    subst hx
    constructor
    rintro y ⟨i, hi, hy⟩
    have hy' : ∀ j, Acc (fun t s => step s t) (y j) := by
      intro j
      rcases eq_or_ne j i with rfl | hj
      · apply (h j).inv hi
      · rw [hy j hj]
        apply h j
    apply ih (fun j => ⟨y j, hy' j⟩) _ hy' rfl
    use i
    constructor
    · intro j hj
      apply Subtype.ext
      apply hy j hj.ne
    · apply hi

/-- Independent systems that run side by side, with their steps interleaved in any way, end as each
of them ends alone. -/
theorem family {Q : ι → S → Prop} (h : ∀ i, Inevitably step (Q i) (x i)) :
  Inevitably (StepOne step) (fun y => ∀ i, Q i (y i)) x
  := by
  have hacc := acc_stepOne fun i => (h i).acc
  induction hacc with
  | intro x _ ih =>
    constructor
    · rintro y ⟨i, hi, hy⟩
      apply ih y ⟨i, hi, hy⟩
      intro j
      rcases eq_or_ne j i with rfl | hj
      · apply (h j).next hi
      · rw [hy j hj]
        apply h j
    · intro hstuck i
      apply (h i).ended
      intro t ht
      apply hstuck (Function.update x i t)
      use i
      constructor
      · rw [Function.update_self]
        apply ht
      · intro j hj
        apply Function.update_of_ne hj t x

end Family

end Inevitably

/-! ### On the way -/

/-- Whichever steps are taken from a state, an execution comes to a state that satisfies `P`, and it
can go on until then. -/
inductive Eventually (step : S → S → Prop) (P : S → Prop) : S → Prop where
  | now {s : S} (h : P s) : Eventually step P s
  | later {s : S} (moves : ∃ t, step s t) (next : ∀ t, step s t → Eventually step P t) :
      Eventually step P s

namespace Eventually

theorem mono (h : Eventually step P s) (hPQ : ∀ t, P t → Q t) :
  Eventually step Q s
  := by
  induction h with
  | now h => exact .now (hPQ _ h)
  | later moves _ ih => exact .later moves ih

/-- What comes about after something that comes about. -/
theorem trans (h : Eventually step P s) (hPQ : ∀ t, P t → Eventually step Q t) :
  Eventually step Q s
  := by
  induction h with
  | now h => exact hPQ _ h
  | later moves _ ih => exact .later moves ih

/-- If no execution is infinite, then `P` comes about as long as every step on the way keeps an
invariant under which there is another step. -/
theorem of_acc {I : S → Prop} (hacc : Acc (fun t s => step s t) s)
    (hmoves : ∀ s, I s → ∃ t, step s t) (hstep : ∀ s t, I s → step s t → I t ∨ P t) (hI : I s) :
  Eventually step P s
  := by
  induction hacc with
  | intro s _ ih =>
    apply later (hmoves s hI)
    intro t hst
    rcases hstep s t hI hst with hI' | hP
    · exact ih t hst hI'
    · exact .now hP

end Eventually

end ReplicaSum
