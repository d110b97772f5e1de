import ReplicaSum.Engine.Threaded
import Mathlib.Tactic.Common

/-!
# The queue of the threaded engine

What the worker makes of its queue. Closing the engine lets the worker serve all of it, so the
closed engine shows how everything turns out that has been submitted. A step of the worker does not
change that, and a transfer that is submitted is carried out after all others.
-/

namespace ReplicaSum

/-! ### Patience -/

namespace Pacing

/-- A client that waits in this way never gives up. -/
def Patient (p : Pacing) : Prop := ∀ ticket, p.givesUp ticket = false

/-- Without a limit, no client gives up. -/
theorem patient_of_none (delay : Nat → Delay) :
  Patient ⟨none, delay⟩
  := fun _ => rfl

/-- No client gives up if every transfer is served within the limit. -/
theorem patient_of_le {limit : Nat} {delay : Nat → Delay}
    (h : ∀ ticket, (delay ticket).millis ≤ limit) :
  Patient ⟨some limit, delay⟩
  := fun ticket => decide_eq_false (Nat.not_lt.mpr (h ticket))

end Pacing

namespace Threaded

variable {e : Threaded} {data : Data} {tag : Tag} {t : Transfer} {ticket k : Nat}
variable {outcome : Except TransferError Buffer}

/-! ### Steps of the worker -/

@[simp]
theorem window_serve (e : Threaded) (data : Data) :
  (e.serve data).1.window = e.window
  := by
  rw [serve]
  split <;> rfl

@[simp]
theorem slots_serve (e : Threaded) (data : Data) :
  (e.serve data).1.slots = e.slots
  := by
  rw [serve]
  split <;> rfl

/-- No ticket gets lost. -/
theorem tickets_serve (e : Threaded) (data : Data) :
  (e.serve data).1.served.size + (e.serve data).1.queue.length = e.served.size + e.queue.length
  := by
  rw [serve]
  split
  · rfl
  · rename_i hqueue
    simp only [Array.size_push, hqueue, List.length_cons]
    omega

/-- What the worker has announced stays announced. -/
theorem served_serve (h : e.served[ticket]? = some outcome) (data : Data) :
  (e.serve data).1.served[ticket]? = some outcome
  := by
  obtain ⟨hlt, -⟩ := Array.getElem?_eq_some_iff.mp h
  rw [serve]
  split
  · apply h
  · rw [Array.getElem?_push_lt hlt, ← h, Array.getElem?_eq_getElem hlt]

@[simp]
theorem pacing_serve (e : Threaded) (data : Data) :
  (e.serve data).1.pacing = e.pacing
  := by
  rw [serve]
  split <;> rfl

theorem serveMany_succ (k : Nat) (e : Threaded) (data : Data) :
  serveMany (k + 1) e data = serveMany k (e.serve data).1 (e.serve data).2
  := rfl

/-- The last of several steps. -/
theorem serveMany_succ_last (k : Nat) (e : Threaded) (data : Data) :
  serveMany (k + 1) e data = (serveMany k e data).1.serve (serveMany k e data).2
  := by
  induction k generalizing e data with
  | zero => rfl
  | succ k ih => rw [serveMany_succ, ih, serveMany_succ]

@[simp]
theorem window_serveMany (k : Nat) (e : Threaded) (data : Data) :
  (serveMany k e data).1.window = e.window
  := by
  induction k generalizing e data with
  | zero => rfl
  | succ k ih => rw [serveMany_succ, ih, window_serve]

@[simp]
theorem slots_serveMany (k : Nat) (e : Threaded) (data : Data) :
  (serveMany k e data).1.slots = e.slots
  := by
  induction k generalizing e data with
  | zero => rfl
  | succ k ih => rw [serveMany_succ, ih, slots_serve]

theorem tickets_serveMany (k : Nat) (e : Threaded) (data : Data) :
  (serveMany k e data).1.served.size + (serveMany k e data).1.queue.length
    = e.served.size + e.queue.length
  := by
  induction k generalizing e data with
  | zero => rfl
  | succ k ih => rw [serveMany_succ, ih, tickets_serve]

theorem served_serveMany (h : e.served[ticket]? = some outcome) (k : Nat) (data : Data) :
  (serveMany k e data).1.served[ticket]? = some outcome
  := by
  induction k generalizing e data with
  | zero => exact h
  | succ k ih => exact ih (served_serve h data) _

/-- Each step shortens the queue by one. -/
theorem length_queue_serveMany (k : Nat) (e : Threaded) (data : Data) :
  (serveMany k e data).1.queue.length = e.queue.length - k
  := by
  induction k generalizing e data with
  | zero => rfl
  | succ k ih =>
    rw [serveMany_succ, ih, serve]
    split
    · rename_i hqueue
      simp only [hqueue, List.length_nil, Nat.zero_sub]
    · rename_i hqueue
      simp only [hqueue, List.length_cons]
      omega

/-! ### The closed engine -/

theorem queue_close (e : Threaded) (data : Data) :
  (e.close data).1.queue = []
  := by
  rw [← List.length_eq_zero_iff, close, length_queue_serveMany, Nat.sub_self]

theorem size_served_close (e : Threaded) (data : Data) :
  (e.close data).1.served.size = e.served.size + e.queue.length
  := by
  have htickets := tickets_serveMany e.queue.length e data
  rw [← close, queue_close] at htickets
  apply htickets

theorem close_of_queue_nil (h : e.queue = []) (data : Data) :
  e.close data = (e, data)
  := by
  rw [close, h]
  rfl

/-- A step of the worker changes nothing about how things turn out. -/
theorem close_serve (e : Threaded) (data : Data) :
  (e.serve data).1.close (e.serve data).2 = e.close data
  := by
  cases hqueue : e.queue with
  | nil =>
    have hserve : e.serve data = (e, data) := by
      rw [serve, hqueue]
    rw [hserve]
  | cons t queue =>
    have hlength : (e.serve data).1.queue.length = queue.length := by
      rw [serve, hqueue]
    rw [close, hlength, close, hqueue, List.length_cons, serveMany_succ]

/-- What the worker does depends neither on the slots nor on what is queued behind. -/
theorem serveMany_append (queue later : List Transfer) (slots : TagSlots Nat) :
  ∀ (e : Threaded) (data : Data), e.queue = queue →
    serveMany queue.length { e with slots, queue := queue ++ later } data
      = ({ (e.close data).1 with slots, queue := later }, (e.close data).2)
  := by
  induction queue with
  | nil =>
    intro e data hqueue
    rw [close_of_queue_nil hqueue]
    rfl
  | cons t queue ih =>
    intro e data hqueue
    have hserve : e.serve data = ({ e with
        queue, served := e.served.push (t.perform e.window data).1 },
        (t.perform e.window data).2) := by
      rw [serve, hqueue]
    rw [← close_serve, hserve, ← ih _ _ rfl]
    rfl

/-- The client may change its slots while the worker is busy. -/
theorem close_slots (e : Threaded) (slots : TagSlots Nat) (data : Data) :
  Threaded.close { e with slots } data = ({ (e.close data).1 with slots }, (e.close data).2)
  := by
  have happend := serveMany_append e.queue [] slots e data rfl
  rw [List.append_nil] at happend
  simp only [queue_close, ← happend]
  rfl

/-- A transfer that is submitted is carried out after all others. -/
theorem close_submitted (e : Threaded) (slots : TagSlots Nat) (t : Transfer) (data : Data) :
  Threaded.close { e with slots, queue := e.queue ++ [t] } data
    = ({ (e.close data).1 with
          slots, served := (e.close data).1.served.push (t.perform e.window (e.close data).2).1 },
        (t.perform e.window (e.close data).2).2)
  := by
  have hwindow : (e.close data).1.window = e.window := window_serveMany _ e data
  rw [close, List.length_append, List.length_singleton, serveMany_succ_last,
    serveMany_append e.queue [t] slots e data rfl, serve]
  simp only [hwindow, queue_close]

/-! ### Steps of the client -/

theorem submit_of_isPending (h : e.slots.isPending tag = true) (t : Transfer) :
  e.submit tag t = (.error (.tagBusy tag), e)
  := by
  rw [submit, TagSlots.issue, if_pos h]

theorem submit_of_free (h : e.slots.get? tag = none) (t : Transfer) :
  e.submit tag t
    = (.ok (), { e with
        slots := e.slots.set tag (some (e.served.size + e.queue.length)),
        queue := e.queue ++ [t] })
  := by
  rw [submit, TagSlots.issue_eq_ok h]

theorem collect_of_free (h : e.slots.get? tag = none) :
  e.collect tag = (.ok none, e)
  := by
  rw [collect, TagSlots.take, h]

/-- What has been announced can be collected. -/
theorem collect_of_served (h : e.slots.get? tag = some ticket)
    (houtcome : e.served[ticket]? = some outcome) :
  e.collect tag = (outcome.map some, { e with slots := e.slots.set tag none })
  := by
  rw [collect, TagSlots.take, h]
  simp only [announcement, houtcome]

/-- The worker doesn't lag behind with what it has announced. -/
theorem lt_of_lag_eq_zero (h : e.slots.get? tag = some ticket) (hlag : e.lag tag = 0) :
  ticket < e.served.size
  := by
  rw [lag, h] at hlag
  exact Nat.lt_of_succ_le (Nat.le_of_sub_eq_zero hlag)

/-- The worker can catch up with the transfer under a tag, if that is in its queue. -/
theorem lag_serveMany (h : ∀ ticket, e.slots.get? tag = some ticket →
      ticket < e.served.size + e.queue.length) (data : Data) :
  (e.serveMany (e.lag tag) data).1.lag tag = 0
  := by
  cases hslot : e.slots.get? tag with
  | none => rw [lag, slots_serveMany, hslot]
  | some ticket =>
    have hlt := h ticket hslot
    have htickets := tickets_serveMany (e.lag tag) e data
    have hqueue := length_queue_serveMany (e.lag tag) e data
    have hlag : e.lag tag = ticket + 1 - e.served.size := by
      rw [lag, hslot]
    rw [lag, slots_serveMany, hslot]
    simp only
    omega

theorem givesUp_of_patient (h : e.pacing.Patient) (tag : Tag) :
  e.givesUp tag = none
  := by
  rw [givesUp]
  split
  · rfl
  · rename_i ticket _
    rw [h ticket, if_neg (by simp)]

/-- A client that is patient waits until it gets to know how the transfer went. -/
theorem wait_of_patient (h : e.pacing.Patient) (tag : Tag) (data : Data) :
  e.wait tag data = e.await tag data
  := by
  rw [wait, givesUp_of_patient h]

end Threaded

end ReplicaSum
