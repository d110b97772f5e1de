import ReplicaSum.Span
import ReplicaSum.Tag

/-!
# Transfer errors

The reasons for which a transfer is refused or fails. None of them can be repaired within a
reduction: either the request was malformed or the machinery that moves the records failed.
-/

namespace ReplicaSum

/-- Why a transfer is refused or fails. -/
inductive TransferError where
  /-- The requested records lie outside of the owned ones. -/
  | outOfRange (requested owned : Span)
  /-- The number of requested records is zero or exceeds the local buffer. -/
  | misaligned (length capacity : Nat)
  /-- The array isn't one of those that are being reduced. -/
  | unknownArray (array : Nat)
  /-- A transfer was begun under a tag that already has one in flight. -/
  | tagBusy (tag : Tag)
  /-- A transfer was expected to be in flight under a tag that has none. -/
  | notPending (tag : Tag)
  /-- A wait took longer than it may. -/
  | timedOut (tag : Tag)
  /-- Whoever carries out the transfers went away. -/
  | disconnected (tag : Tag)
deriving DecidableEq, Repr

/-- The sentence that describes a transfer error. -/
def TransferError.message : TransferError → String
  | .outOfRange requested owned =>
    s!"records {requested.text} lie outside of the owned range {owned.text}"
  | .misaligned length capacity =>
    s!"a transfer of {length} records doesn't fit a local buffer with room for {capacity} records"
  | .unknownArray array => s!"array {array} isn't being reduced"
  | .tagBusy tag => s!"{tag.text} already has a transfer in flight"
  | .notPending tag => s!"{tag.text} has no transfer in flight"
  | .timedOut tag => s!"timed out while waiting on {tag.text}"
  | .disconnected tag => s!"transfer engine disconnected while serving {tag.text}"

end ReplicaSum
