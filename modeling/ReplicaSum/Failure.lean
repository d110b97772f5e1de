/-!
# Failures

A call can fail in two ways. An *error* is an answer: the caller handed in something that the
library rejects, and may go on. A *violation* means that the caller broke a stated
precondition; the call is abandoned where it stood.
-/

namespace ReplicaSum

/-- The preconditions that a caller can break. -/
inductive Violation where
  /-- A block length of zero. -/
  | blockLenZero
  /-- A rank that is not below the number of ranks. -/
  | rankOutOfRange
  /-- More records than the running sum has entries. -/
  | sumTooShort
  /-- An array number that no transfer tag belongs to. -/
  | tagOutOfRange
  /-- A split point beyond the last record of a view. -/
  | splitOutOfRange
  /-- An array number that the view does not hold. -/
  | arrayOutOfRange
  /-- A local buffer that is shorter than the block it has to hold. -/
  | bufferTooShort
deriving DecidableEq, Repr

/-- The sentence that states a broken precondition. -/
def Violation.message : Violation → String
  | .blockLenZero => "block_len must be positive"
  | .rankOutOfRange => "rank must be smaller than n_rank"
  | .sumTooShort => "the running sum must have an entry for every record"
  | .tagOutOfRange => "no transfer tag belongs to the array"
  | .splitOutOfRange => "a view can't be split beyond its last record"
  | .arrayOutOfRange => "the view doesn't hold the array"
  | .bufferTooShort => "a local buffer must have room for a block"

/-- Why a call with errors of type `ε` ended without a result. -/
inductive Failure (ε : Type) where
  | error (cause : ε)
  | violation (cause : Violation)
deriving DecidableEq, Repr

/-- Replace the error of a failure. -/
def Failure.map {ε δ : Type} (f : ε → δ) : Failure ε → Failure δ
  | .error cause => .error (f cause)
  | .violation cause => .violation cause

end ReplicaSum
