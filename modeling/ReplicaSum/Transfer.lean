import ReplicaSum.Window

/-!
# Transfers

A transfer moves records between the data and a local buffer. The buffer is handed over with
the request and comes back when the transfer is collected, so nobody else uses it meanwhile.
-/

namespace ReplicaSum

/-- What tells local buffers apart. -/
inductive BufferName where
  /-- The buffer of a rank for incoming records of an array. -/
  | staged (array : Nat)
  /-- The buffer of a rank for outgoing records. -/
  | out
  /-- A buffer of another client. -/
  | client (name : String)
deriving DecidableEq, Repr

/-- A local buffer. -/
structure Buffer where
  name : BufferName
  records : Array Record

/-- A request to move records. -/
inductive Transfer where
  /-- Fill the front of the buffer with records of an array. -/
  | get (array : Nat) (records : Span) (buffer : Buffer)
  /-- Store the front of the buffer in records of array `0`. -/
  | put (records : Span) (buffer : Buffer)

/-- Carry out a transfer through a window: the buffer as it comes back, or the reason for which
nothing was moved, together with the data afterwards. -/
def Transfer.perform (w : Window) (data : Data) :
    Transfer → Except TransferError Buffer × Data
  | .get array records buffer =>
    match w.read data array records buffer.records with
    | .ok filled => (.ok { buffer with records := filled }, data)
    | .error cause => (.error cause, data)
  | .put records buffer =>
    match w.check records buffer.records.size with
    | .ok () => (.ok buffer, w.store data records buffer.records)
    | .error cause => (.error cause, data)

end ReplicaSum
