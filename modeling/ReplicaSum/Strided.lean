import ReplicaSum.Arena
import ReplicaSum.View

/-!
# Strided views

A view of a slice is made by laying a grid over it, with a row for each array and a column for each
record. `View.ofSlice` checks the layout first and asks for the grid afterwards. Strided views are
free to turn down grids that aren't regular: those that leave the slice, those whose positions may
coincide, and those whose offsets are too large. Which of them they do turn down is up to `admits`.
-/

namespace ReplicaSum

/-- The largest distance in bytes between two addresses. -/
def largestOffset : Nat := (1 <<< 63) - 1

/-- A distance in records as an offset, unless it is too large to be one. -/
def asOffset (n : Nat) : Option Nat := if n * recordBytes ≤ largestOffset then some n else none

/-- The indices `0..length`, which are `stride` records apart. -/
structure Axis where
  length : Nat
  stride : Nat
deriving DecidableEq, Repr

namespace Axis

/-- The distance between the first index of an axis and the last one. -/
def reach (x : Axis) : Nat := (x.length - 1) * x.stride

/-- Each step along the axis leads beyond the next `reach` records. -/
def Clears (x : Axis) (reach : Nat) : Prop := x.length ≤ 1 ∨ reach < x.stride

instance (x : Axis) (reach : Nat) : Decidable (x.Clears reach) :=
  inferInstanceAs (Decidable (x.length ≤ 1 ∨ reach < x.stride))

end Axis

/-- Positions in a slice, in rows and columns. -/
structure Grid where
  rows : Axis
  cols : Axis
deriving DecidableEq, Repr

namespace Grid

/-- A grid without positions. -/
def IsEmpty (g : Grid) : Prop := g.rows.length = 0 ∨ g.cols.length = 0

instance (g : Grid) : Decidable g.IsEmpty :=
  inferInstanceAs (Decidable (g.rows.length = 0 ∨ g.cols.length = 0))

/-- The distance between the first position of a grid and the last one. -/
def reach (g : Grid) : Nat := g.rows.reach + g.cols.reach

/-- The position in row `a` and column `i`, unless an offset on the way to it is too large. -/
def position? (g : Grid) (a i : Nat) : Option Nat := do
  let row ← asOffset (a * g.rows.stride)
  let col ← asOffset (i * g.cols.stride)
  asOffset (row + col)

/-- The positions of a grid lie in a slice of `len` records. -/
def InBounds (g : Grid) (len : Nat) : Prop := if g.IsEmpty then g.reach ≤ len else g.reach < len

/-- The axis with the longer stride leads beyond all that the other one reaches, and that one moves
at all. -/
def Separated (g : Grid) : Prop :=
  if g.rows.stride < g.cols.stride then g.rows.Clears 0 ∧ g.cols.Clears g.rows.reach
  else g.cols.Clears 0 ∧ g.rows.Clears g.cols.reach

/-- The number of positions, the strides and the reach of a grid are offsets. -/
def Addressable (g : Grid) : Prop :=
  max 1 g.rows.length * max 1 g.cols.length ≤ largestOffset ∧
  (g.rows.stride ≤ largestOffset ∧ g.cols.stride ≤ largestOffset) ∧
  g.reach * recordBytes ≤ largestOffset

/-- A grid with nothing against it. Where there is no position, none can coincide. -/
def Regular (g : Grid) (len : Nat) : Prop :=
  g.Addressable ∧ g.InBounds len ∧ (g.IsEmpty ∨ g.Separated)

instance (g : Grid) (len : Nat) : Decidable (g.InBounds len) :=
  inferInstanceAs (Decidable (if g.IsEmpty then g.reach ≤ len else g.reach < len))

instance (g : Grid) : Decidable g.Separated :=
  inferInstanceAs (Decidable
    (if g.rows.stride < g.cols.stride then g.rows.Clears 0 ∧ g.cols.Clears g.rows.reach
      else g.cols.Clears 0 ∧ g.rows.Clears g.cols.reach))

instance (g : Grid) : Decidable g.Addressable :=
  inferInstanceAs (Decidable (_ ∧ _ ∧ _))

instance (g : Grid) (len : Nat) : Decidable (g.Regular len) :=
  inferInstanceAs (Decidable (_ ∧ _ ∧ _))

end Grid

/-- The grid of a layout. The stride of a single array is replaced by the length of the array: it
may be anything, and strided views might object to it. -/
def Layout.grid (l : Layout) : Grid where
  rows := ⟨l.nArray, if l.nArray = 1 then max l.nRecord 1 else l.stride⟩
  cols := ⟨l.nRecord, 1⟩

/-- Why a slice has no view. -/
inductive ViewError where
  /-- The slice doesn't hold the layout. -/
  | layout (cause : LayoutError)
  /-- The grid of the layout was turned down. -/
  | notMade
deriving DecidableEq, Repr

/-- The sentence that describes why a slice has no view. -/
def ViewError.message : ViewError → String
  | .layout cause => cause.message
  | .notMade => "unable to construct a view with the given layout"

/-- The view of a layout in a slice of `len` records, over the grids that `admits` lets pass. -/
def View.ofSlice (admits : Grid → Nat → Bool) (l : Layout) (len : Nat) : Except ViewError View :=
  match l.check len with
  | .error cause => .error (.layout cause)
  | .ok () =>
    if admits l.grid len then .ok ⟨l.nArray, l.stride, 0, l.nRecord, l.grid.cols.stride⟩
    else .error .notMade

end ReplicaSum
