import ReplicaSum.Tag

/-!
# Layouts

Several arrays of the same length live in one slice of records, array `a` from position
`a * stride` on. The records between the end of an array and the start of the next one are
padding and belong to no array. A slice may be longer than its layout requires.
-/

namespace ReplicaSum

/-- The ways in which buffers fail to make up the scratch memory of a rank. -/
inductive ScratchError where
  /-- The block length is zero or too large. -/
  | blockLen
  /-- The buffer for incoming records is too short. -/
  | staged
  /-- The buffer for the sum or the one for the result is too short. -/
  | sumOrOut
deriving DecidableEq, Repr

/-- The sentence that describes a scratch error. -/
def ScratchError.message : ScratchError → String
  | .blockLen => "block_len must be positive and must not exceed MAX_BLOCK_LEN"
  | .staged => "staged must have room for MAX_ARRAY blocks"
  | .sumOrOut => "sum and out must each have room for a block"

/-- The ways in which memory fails to be laid out as a reduction needs it. -/
inductive LayoutError where
  /-- There is no array, or there are too many. -/
  | arrayCount
  /-- The arrays overlap. -/
  | strideTooShort
  /-- The slice ends before the last array does. -/
  | sliceTooShort
  /-- The end of the last array has no address. -/
  | strideTooLong
  /-- A view doesn't show what the context describes. -/
  | contextMismatch
  /-- A view doesn't show the records of its rank. -/
  | rankMismatch
  /-- The records that a view shows of an array don't lie side by side. -/
  | notContiguous
  /-- The scratch memory is unfit. -/
  | scratch (cause : ScratchError)
deriving DecidableEq, Repr

/-- The sentence that describes a layout error. -/
def LayoutError.message : LayoutError → String
  | .arrayCount => "the number of arrays must lie between 1 and MAX_ARRAY"
  | .strideTooShort => "the stride between arrays can't be smaller than an array"
  | .sliceTooShort => "the slice is too short to hold every array"
  | .strideTooLong => "the stride between arrays is too large to address"
  | .contextMismatch => "the accumulator view doesn't match the reduction context"
  | .rankMismatch => "the view doesn't cover the records owned by the rank"
  | .notContiguous => "the records of an array must be contiguous"
  | .scratch cause => cause.message

/-- The number of distinct addresses, and the bound on every count. -/
def addressLimit : Nat := 1 <<< 64

/-- A number as a count, unless it is too large to be one. -/
def asCount (n : Nat) : Option Nat := if n < addressLimit then some n else none

/-- `nArray` arrays of `nRecord` records each, which start `stride` records apart. -/
structure Layout where
  nArray : Nat
  nRecord : Nat
  stride : Nat
deriving DecidableEq, Repr

namespace Layout

/-- The position in the slice of record `i` of array `a`. -/
def address (l : Layout) (a i : Nat) : Nat := a * l.stride + i

/-- The number of records that a slice needs to hold the layout, unless that number is too
large to be a count. -/
def requiredLen (l : Layout) : Option Nat :=
  if l.nArray = 0 then some 0
  else do
    let last ← asCount ((l.nArray - 1) * l.stride)
    asCount (last + l.nRecord)

/-- Whether a slice of `len` records is long enough for the layout. -/
def fits (l : Layout) (len : Nat) : Bool :=
  match l.requiredLen with
  | some required => required ≤ len
  | none => false

/-- Check that a slice of `len` records holds the layout. -/
def check (l : Layout) (len : Nat) : Except LayoutError Unit :=
  if l.nArray = 0 ∨ maxArray < l.nArray then .error .arrayCount
  else if 1 < l.nArray ∧ l.stride < l.nRecord then .error .strideTooShort
  else if l.fits len then .ok ()
  else .error .sliceTooShort

end Layout

end ReplicaSum
