import ReplicaSum.Config
import ReplicaSum.Reducer

/-!
# Errors of a reduction

Every error that a caller of the library can meet, with its category and its wording. Bounds are
reported as 64-bit numbers with a sign, so a count of `2 ^ 63` or more shows as a negative
number.
-/

namespace ReplicaSum

/-- A coarse classification of errors. -/
inductive ErrorCategory where
  /-- The reduction can't be carried out as it was asked for. -/
  | configuration
  /-- There isn't enough memory. -/
  | resourceExhausted
  /-- A transfer failed. -/
  | transferFabric
deriving DecidableEq, Repr

/-- The quantities that have to lie between bounds. -/
inductive Quantity where
  | nArray
  | blockLen
  | nPipeline
  | rank
deriving DecidableEq, Repr

/-- The name of a quantity in messages. -/
def Quantity.text : Quantity → String
  | .nArray => "n_array"
  | .blockLen => "block_len"
  | .nPipeline => "n_pipeline"
  | .rank => "rank"

/-- The buffers of a rank. -/
inductive ScratchPart where
  | staged
  | sum
  | out
deriving DecidableEq, Repr

/-- The name of a buffer in messages. -/
def ScratchPart.text : ScratchPart → String
  | .staged => "staged input blocks"
  | .sum => "the running sum"
  | .out => "the output block"

/-- Why a reduction, or a step towards one, is refused or fails. -/
inductive ReduceError where
  /-- A text isn't a configuration. -/
  | config (what : String)
  /-- A quantity lies beyond its bounds. -/
  | bounds (quantity : Quantity) (actual low high : Int)
  /-- Memory isn't laid out as it has to be. -/
  | layout (cause : LayoutError)
  /-- There is no memory for a buffer of so many bytes. -/
  | memory (part : ScratchPart) (nBytes : Nat)
  /-- There is no pool of threads for the ranks. -/
  | threadPool (what : String)
  /-- A transfer failed. -/
  | transfer (cause : TransferError)

/-- The 64-bit number with a sign that has the same bits as a count. -/
def signed (n : Nat) : Int := Int.bmod n (1 <<< 64)

/-- The largest 64-bit number with a sign. -/
def largestSigned : Int := Int.ofNat (1 <<< 63) - 1

namespace ReduceError

/-- The category of an error. -/
def category : ReduceError → ErrorCategory
  | .config _ => .configuration
  | .bounds _ _ _ _ => .configuration
  | .layout _ => .configuration
  | .memory _ _ => .resourceExhausted
  | .threadPool _ => .configuration
  | .transfer _ => .transferFabric

/-- The sentence that describes an error. -/
def message : ReduceError → String
  | .config what => s!"invalid configuration: {what}"
  | .bounds quantity actual low high =>
    s!"{quantity.text} has a value of {actual}. "
      ++ s!"The value should be no less than {low} and not exceed {high}"
  | .layout cause => s!"bad accumulator layout: {cause.message}"
  | .memory part nBytes => s!"unable to reserve {nBytes} bytes for {part.text}"
  | .threadPool what => s!"unable to build thread pool: {what}"
  | .transfer cause => s!"transfer failed: {cause.message}"

/-- The transfer error that an error stands for. -/
def transfer? : ReduceError → Option TransferError
  | .transfer cause => some cause
  | _ => none

/-- A number of arrays that can't be reduced is a matter of bounds. -/
def ofRankError : RankError → ReduceError
  | .arrayCount nArray => .bounds .nArray (signed nArray) 2 maxArray
  | .transfer cause => .transfer cause

end ReduceError

/-- The configuration in a text. The texts are read by `read`, which says what is wrong with a text
that isn't a configuration. -/
def Config.ofText (read : String → Except String Config) (text : String) :
    Except ReduceError Config :=
  (read text).mapError .config

end ReplicaSum
