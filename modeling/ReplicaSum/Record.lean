/-!
# Records

A record holds the accumulated quantities of one voxel: three vector-valued fields with four
lanes each. Records are stored in single precision and summed in double precision, so both
are grids of lanes over a different scalar.

The rounding happens in one place: a running sum starts as the promotion of its first record,
grows by the promotion of each further record, and is demoted once, at the end.
-/

namespace ReplicaSum

/-- The number of vector-valued fields of a record. -/
abbrev nFields : Nat := 3

/-- The number of lanes of a field. -/
abbrev nLanes : Nat := 4

/-- One value for each lane of each field. -/
structure Lanes (α : Type) where
  fields : Vector (Vector α nLanes) nFields
deriving Inhabited, BEq

/-- A record as it is stored. -/
abbrev Record := Lanes Float32

/-- The double precision counterpart of a record, used while records are summed. -/
abbrev WideRecord := Lanes Float

namespace Lanes

variable {α β γ : Type}

/-- The value in lane `k` of field `f`. -/
def lane (x : Lanes α) (f : Fin nFields) (k : Fin nLanes) : α := x.fields[f][k]

/-- The grid whose value in lane `k` of field `f` is `g f k`. -/
def ofFn (g : Fin nFields → Fin nLanes → α) : Lanes α :=
  ⟨Vector.ofFn fun f => Vector.ofFn fun k => g f k⟩

/-- The grid with the same value in every lane. -/
def splat (a : α) : Lanes α := ⟨Vector.replicate nFields (Vector.replicate nLanes a)⟩

/-- Apply a function to every lane. -/
def map (g : α → β) (x : Lanes α) : Lanes β := ⟨x.fields.map fun field => field.map g⟩

/-- Combine two grids lane by lane. -/
def zipWith (g : α → β → γ) (x : Lanes α) (y : Lanes β) : Lanes γ :=
  ⟨Vector.zipWith (Vector.zipWith g) x.fields y.fields⟩

/-- The lanes in field-major order. -/
def toList (x : Lanes α) : List α := x.fields.toList.flatMap Vector.toList

/-- Two grids are equal when they agree in every lane. -/
theorem ext_lane {x y : Lanes α} (h : ∀ f k, x.lane f k = y.lane f k) :
  x = y
  := by
  obtain ⟨x⟩ := x
  obtain ⟨y⟩ := y
  congr 1
  ext i hi j hj
  exact h ⟨i, hi⟩ ⟨j, hj⟩

@[simp]
theorem lane_ofFn (g : Fin nFields → Fin nLanes → α) (f : Fin nFields) (k : Fin nLanes) :
  (ofFn g).lane f k = g f k
  := by
  simp [lane, ofFn]

@[simp]
theorem lane_splat (a : α) (f : Fin nFields) (k : Fin nLanes) :
  (splat a).lane f k = a
  := by
  simp [lane, splat]

@[simp]
theorem lane_map (g : α → β) (x : Lanes α) (f : Fin nFields) (k : Fin nLanes) :
  (x.map g).lane f k = g (x.lane f k)
  := by
  simp [lane, map]

@[simp]
theorem lane_zipWith (g : α → β → γ) (x : Lanes α) (y : Lanes β) (f : Fin nFields)
    (k : Fin nLanes) :
  (zipWith g x y).lane f k = g (x.lane f k) (y.lane f k)
  := by
  simp [lane, zipWith]

/-! ### The fields by name -/

/-- The first field. -/
def jx (x : Lanes α) : Vector α nLanes := x.fields[0]

/-- The second field. -/
def jy (x : Lanes α) : Vector α nLanes := x.fields[1]

/-- The third field. -/
def jz (x : Lanes α) : Vector α nLanes := x.fields[2]

/-! ### Precision -/

/-- The record with zero in every lane. -/
def zero : Record := splat 0.0

/-- The wide record with zero in every lane. -/
def wideZero : WideRecord := splat 0.0

/-- The exact double precision values of a record. -/
def promote (x : Record) : WideRecord := x.map Float32.toFloat

/-- Add the promotion of a record to a running sum. -/
def addPromoted (sum : WideRecord) (x : Record) : WideRecord :=
  zipWith (fun wide narrow => wide + narrow.toFloat) sum x

/-- Round every lane to the nearest single precision value. -/
def demote (sum : WideRecord) : Record := sum.map Float.toFloat32

@[simp]
theorem lane_promote (x : Record) (f : Fin nFields) (k : Fin nLanes) :
  x.promote.lane f k = (x.lane f k).toFloat
  := lane_map _ _ _ _

@[simp]
theorem lane_addPromoted (sum : WideRecord) (x : Record) (f : Fin nFields) (k : Fin nLanes) :
  (sum.addPromoted x).lane f k = sum.lane f k + (x.lane f k).toFloat
  := lane_zipWith _ _ _ _ _

@[simp]
theorem lane_demote (sum : WideRecord) (f : Fin nFields) (k : Fin nLanes) :
  sum.demote.lane f k = (sum.lane f k).toFloat32
  := lane_map _ _ _ _

/-- The record that replaces `first` when the records `rest` are added to it: the running sum
starts with `first` and takes the others in their order. -/
def combined (first : Record) (rest : List Record) : Record :=
  (rest.foldl addPromoted first.promote).demote

end Lanes

end ReplicaSum
