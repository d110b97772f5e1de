import ReplicaSum.Proofs.Splitting
import ReplicaSum.Storage

/-!
# Calls to storages

A storage counts records from the start of its stretches. It nevertheless reads and writes what the
window on the same view does, and no step of it is without a result, however the records of a call
lie. From this follows what every call does to its buffer and to the slice, in any order of calls to
the storages into which the view of a layout is split.
-/

namespace ReplicaSum

section Stretches

variable {u : View} {data : Data} {records s part : Span} {a capacity len : Nat}

theorem countFrom_eq_ok {start n : Nat} (h : start ≤ n) :
  countFrom start n = .ok (n - start)
  := if_pos h

theorem Span.bounded_eq_ok (h : s.start ≤ s.stop) (hstop : s.stop ≤ len) :
  s.bounded len = .ok s
  := if_pos ⟨h, hstop⟩

theorem Span.cutOut_eq_ok (h : part.start ≤ part.stop) (hstop : part.stop ≤ s.length) :
  s.cutOut part = .ok (part.shift s.start)
  := by
  rw [cutOut, bounded_eq_ok h hstop]
  rfl

theorem recordsAt_eq_ok (h : s.start ≤ s.stop) (hstop : s.stop ≤ data.size) :
  recordsAt data s = .ok (data.extract s.start s.stop)
  := by
  rw [recordsAt, Span.bounded_eq_ok h hstop]
  rfl

theorem copyOver_eq_ok {dst src : Array Record} (h : s.start ≤ s.stop) (hstop : s.stop ≤ dst.size)
    (hsize : s.length = src.size) :
  copyOver dst s src = .ok (overwrite dst s.start src)
  := by
  rw [copyOver, Span.bounded_eq_ok h hstop]
  simp only [bind, Except.bind, if_pos hsize, pure, Except.pure]

namespace Storage

/-! ### Stretches -/

/-- Records that pass the check of the window are counted from the first owned record. -/
theorem localSpan_of_check_ok (h : u.window.check records capacity = .ok ()) :
  u.storage.localSpan records capacity
    = .ok ⟨records.start - u.owned.start, records.stop - u.owned.start⟩
  := by
  obtain ⟨⟨hpos, hfit⟩, hstart, hstop⟩ := Window.check_eq_ok_iff.mp h
  simp only [View.window] at hstart hstop
  have hlen : records.length = records.stop - records.start := rfl
  rw [localSpan, if_neg (by simp only [Span.isEmpty_iff]; omega),
    if_neg (by simp only [View.storage]; omega)]
  simp only [View.storage, countFrom_eq_ok hstart,
    countFrom_eq_ok (show u.owned.start ≤ records.stop by omega), bind, Except.bind, pure,
    Except.pure]

/-- Records that the check of the window turns down are turned down before anything is computed from
them. -/
theorem localSpan_of_check_error {cause : TransferError}
    (h : u.window.check records capacity = .error cause) :
  u.storage.localSpan records capacity = .error (.refused cause)
  := by
  rw [Window.check] at h
  rw [localSpan]
  split at h
  · rename_i hmisaligned
    cases h
    rw [if_pos hmisaligned]
  · rename_i haligned
    rw [if_neg haligned]
    split at h
    · rename_i hout
      cases h
      exact if_pos hout
    · cases h

/-- What is cut out of the stretch of an array lies where the window has the records. -/
theorem cutOut_stretch (a : Nat) (h : u.window.check records capacity = .ok ()) :
  (Span.mk (u.window.address a u.owned.start) (u.window.address a u.owned.stop)).cutOut
      ⟨records.start - u.owned.start, records.stop - u.owned.start⟩
    = .ok ⟨u.window.address a records.start, u.window.address a records.stop⟩
  := by
  obtain ⟨⟨hpos, -⟩, hstart, hstop⟩ := Window.check_eq_ok_iff.mp h
  have hlen : records.length = records.stop - records.start := rfl
  simp only [View.window] at hstart hstop
  rw [Span.cutOut_eq_ok, Span.shift]
  · simp only [Window.address, Except.ok.injEq, Span.mk.injEq]
    omega
  · simp only
    omega
  · simp only [Span.length, Window.address] at hstop ⊢
    omega

/-! ### Storages and windows -/

/-- A storage reads what the window on the same view reads. -/
theorem read_storage (h : u.window.Fits data.size) (a : Nat) (records : Span)
    (dst : Array Record) :
  u.storage.read data a records dst = (u.window.read data a records dst).mapError .refused
  := by
  rw [read, Window.read]
  by_cases ha : u.nArray ≤ a
  · rw [if_pos (show u.storage.nArray ≤ a from ha), if_pos (show u.window.nArray ≤ a from ha)]
    rfl
  · rw [if_neg (show ¬ u.storage.nArray ≤ a from ha), if_neg (show ¬ u.window.nArray ≤ a from ha)]
    cases hcheck : u.window.check records dst.size with
    | error cause =>
      simp only [localSpan_of_check_error hcheck, bind, Except.bind]
      rfl
    | ok =>
      obtain ⟨⟨hpos, hfit⟩, -, hstop⟩ := Window.check_eq_ok_iff.mp hcheck
      have hend : u.window.address a records.stop ≤ data.size :=
        h.address_le (show a < u.nArray by omega) hstop
      have hle : u.window.address a records.start ≤ u.window.address a records.stop := by
        simp only [Window.address, Span.length] at hpos ⊢
        omega
      have hsize : (u.window.block data a records).size = records.length := Window.size_block hend
      have hrecords : recordsAt data
          ⟨u.window.address a records.start, u.window.address a records.stop⟩
          = .ok (u.window.block data a records) := recordsAt_eq_ok hle hend
      simp only [localSpan_of_check_ok hcheck, bind, Except.bind,
        View.stretch_storage (show a < u.nArray by omega) h.nArray_le, cutOut_stretch a hcheck,
        hrecords, pure, Except.pure, Except.mapError, Window.load]
      apply copyOver_eq_ok
      · apply Nat.zero_le
      · simp only [hsize]
        apply hfit
      · rfl

/-- A storage writes what the window on the same view writes. -/
theorem write_storage (hn : 0 < u.nArray) (h : u.window.Fits data.size) (records : Span)
    (src : Array Record) :
  u.storage.write data records src = (u.window.write data records src).mapError .refused
  := by
  rw [write, Window.write]
  cases hcheck : u.window.check records src.size with
  | error cause =>
    simp only [localSpan_of_check_error hcheck, bind, Except.bind]
    rfl
  | ok =>
    obtain ⟨⟨hpos, hfit⟩, hstart, hstop⟩ := Window.check_eq_ok_iff.mp hcheck
    have hend : u.window.address 0 records.stop ≤ data.size := h.address_le hn hstop
    have hle : u.window.address 0 records.start ≤ u.window.address 0 records.stop := by
      simp only [Window.address, Span.length] at hpos ⊢
      omega
    have hlen : (Span.mk (records.start - u.owned.start) (records.stop - u.owned.start)).length
        = records.length := by
      simp only [View.window] at hstart
      simp only [Span.length]
      omega
    simp only [localSpan_of_check_ok hcheck, bind, Except.bind, hlen]
    rw [View.storage, cutOut_stretch 0 hcheck]
    simp only [recordsAt_eq_ok (s := ⟨0, records.length⟩) (Nat.zero_le _) hfit, pure, Except.pure,
      Except.mapError, Window.store, Array.take_eq_extract]
    apply copyOver_eq_ok hle hend
    rw [Array.size_extract, Nat.min_eq_left hfit]
    simp only [Window.address, Span.length]
    omega

end Storage

end Stretches

/-! ### Calls -/

namespace Access

/-- The records that a call names. -/
def records : Access → Span
  | .read _ records _ => records
  | .write records _ => records

/-- The buffer that a call is given. -/
def buffer : Access → Array Record
  | .read _ _ dst => dst
  | .write _ src => src

/-- The array that a call names is one of the layout. A call that writes doesn't name any. -/
def Known (l : Layout) : Access → Prop
  | .read array _ _ => array < l.nArray
  | .write _ _ => True

instance (l : Layout) : (call : Access) → Decidable (call.Known l)
  | .read array _ _ => inferInstanceAs (Decidable (array < l.nArray))
  | .write _ _ => inferInstanceAs (Decidable True)

/-- A call names some records, and no more than its buffer has room for. -/
def Aligned (call : Access) : Prop :=
  0 < call.records.length ∧ call.records.length ≤ call.buffer.size

instance (call : Access) : Decidable call.Aligned :=
  inferInstanceAs (Decidable (_ ∧ _))

/-- A call names none but owned records. -/
def Inside (owned : Span) (call : Access) : Prop :=
  owned.start ≤ call.records.start ∧ call.records.stop ≤ owned.stop

instance (owned : Span) (call : Access) : Decidable (call.Inside owned) :=
  inferInstanceAs (Decidable (_ ∧ _))

end Access

/-- A call to a storage of the records `owned` of a layout gets the answer `answer` and turns the
slice from `data` into `data'`, as it has to. -/
structure Answered (l : Layout) (owned : Span) (data : Data) (call : Access) (answer : Answer)
    (data' : Data) : Prop where
  ok_iff : answer.reply = .ok () ↔ call.Known l ∧ call.Aligned ∧ call.Inside owned
  unknownArray : ∀ array records dst, call = .read array records dst → l.nArray ≤ array →
    answer.reply = .error (.refused (.unknownArray array))
  misaligned : call.Known l → ¬ call.Aligned →
    answer.reply = .error (.refused (.misaligned call.records.length call.buffer.size))
  outOfRange : call.Known l → call.Aligned → ¬ call.Inside owned →
    answer.reply = .error (.refused (.outOfRange call.records owned))
  not_trapped : ∀ cause, answer.reply ≠ .error (.trapped cause)
  refused : answer.reply ≠ .ok () → answer.buffer = call.buffer ∧ data' = data
  /-- The front of the buffer is filled with the records of the array. -/
  read : ∀ array records dst, call = .read array records dst → answer.reply = .ok () →
    data' = data ∧ answer.buffer.size = dst.size ∧
    (∀ j < records.length, ∃ record, data[l.address array (records.start + j)]? = some record ∧
      answer.buffer[j]? = some record) ∧
    ∀ j, records.length ≤ j → answer.buffer[j]? = dst[j]?
  /-- The records are replaced by the front of the buffer. -/
  write : ∀ records src, call = .write records src → answer.reply = .ok () →
    answer.buffer = src ∧ data'.size = data.size ∧
    (∀ j < records.length, ∃ record, src[j]? = some record ∧
      data'[l.address 0 (records.start + j)]? = some record) ∧
    ∀ p, p ∉ records → data'[p]? = data[p]?

/-- Every call is answered as it has to be on what the calls before it left of the slice. -/
inductive Along (l : Layout) : Data → List (View × Access) → List Answer → Data → Prop where
  | nil (data : Data) : Along l data [] [] data
  | cons {data data' data'' : Data} {u : View} {call : Access} {answer : Answer}
      {calls : List (View × Access)} {answers : List Answer}
      (head : Answered l u.owned data call answer data')
      (tail : Along l data' calls answers data'') :
      Along l data ((u, call) :: calls) (answer :: answers) data''

/-- The view `u` shows records of a layout that a slice of `len` records holds. -/
structure View.PartOf (l : Layout) (len : Nat) (u : View) : Prop where
  nArray_pos : 0 < l.nArray
  nArray_eq : u.nArray = l.nArray
  stride_eq : u.stride = l.stride
  fits : u.window.Fits len

/-- What shows a part of the view of a layout shows records of the layout. -/
theorem View.Within.partOf {l : Layout} {u v : View} {len : Nat} (hu : u.Within v)
    (h : View.ofLayout l len = .ok v) :
  u.PartOf l len
  := by
  have hfits : u.window.Fits len := hu.fits (Of.ofLayout h).fits
  obtain ⟨hn, -, -, rfl⟩ := ofLayout_eq_ok_iff.mp h
  exact ⟨hn.1, hu.nArray_eq, hu.stride_eq, hfits⟩

namespace Storage

variable {l : Layout} {u : View} {data : Data} {call : Access}

/-- The check of the window tells which calls are aligned and inside of the owned records. -/
theorem check_eq_ok_iff_aligned (u : View) (call : Access) :
  u.window.check call.records call.buffer.size = .ok () ↔ call.Aligned ∧ call.Inside u.owned
  := Window.check_eq_ok_iff

theorem check_of_not_aligned (u : View) (h : ¬ call.Aligned) :
  u.window.check call.records call.buffer.size
    = .error (.misaligned call.records.length call.buffer.size)
  := by
  rw [Access.Aligned] at h
  rw [Window.check, if_pos]
  rw [Span.isEmpty_iff]
  omega

theorem check_of_not_inside (h : call.Aligned) (hout : ¬ call.Inside u.owned) :
  u.window.check call.records call.buffer.size = .error (.outOfRange call.records u.owned)
  := by
  rw [Access.Aligned] at h
  rw [Access.Inside] at hout
  rw [Window.check, if_neg (by rw [Span.isEmpty_iff]; omega), if_pos]
  · rfl
  · simp only [View.window]
    omega

/-- A call for an array that isn't there is refused on account of the array, whatever else is wrong
with it. -/
theorem answered_of_unknown {array : Nat} (records : Span) (dst : Array Record)
    (harray : l.nArray ≤ array) :
  Answered l u.owned data (.read array records dst)
    ⟨.error (.refused (.unknownArray array)), dst⟩ data
  := by
  have hunknown : ¬ (Access.read array records dst).Known l := Nat.not_lt.mpr harray
  constructor
  · simp only [reduceCtorEq, false_iff]
    rintro ⟨hknown, -⟩
    apply hunknown hknown
  · rintro array' records' dst' hcall -
    cases hcall
    rfl
  · intro hknown
    exact absurd hknown hunknown
  · intro hknown
    exact absurd hknown hunknown
  · simp
  · intro _
    exact ⟨rfl, rfl⟩
  · simp
  · simp

/-- A call that the window refuses is refused for the same reason and leaves everything as it was.
-/
theorem answered_of_check_error {cause : TransferError} (hknown : call.Known l)
    (h : u.window.check call.records call.buffer.size = .error cause) :
  Answered l u.owned data call ⟨.error (.refused cause), call.buffer⟩ data
  := by
  constructor
  · simp only [reduceCtorEq, false_iff]
    rintro ⟨-, hgood⟩
    rw [(check_eq_ok_iff_aligned u call).mpr hgood] at h
    cases h
  · rintro array records dst rfl harray
    exact absurd hknown (Nat.not_lt.mpr harray)
  · intro _ hmisaligned
    rw [check_of_not_aligned u hmisaligned] at h
    cases h
    rfl
  · intro _ haligned hout
    rw [check_of_not_inside haligned hout] at h
    cases h
    rfl
  · simp
  · intro _
    exact ⟨rfl, rfl⟩
  · simp
  · simp

/-- A read that passes the check of the window fills the front of its buffer. -/
theorem answered_read {array : Nat} {records : Span} {dst : Array Record}
    (hu : u.PartOf l data.size) (harray : array < l.nArray)
    (h : u.window.check records dst.size = .ok ()) :
  Answered l u.owned data (.read array records dst)
    ⟨.ok (), u.window.load data array records dst⟩ data
  := by
  have hgood := (check_eq_ok_iff_aligned u (.read array records dst)).mp h
  obtain ⟨⟨hpos, hfit⟩, -, hstop⟩ := Window.check_eq_ok_iff.mp h
  have hend : u.window.address array records.stop ≤ data.size := by
    apply hu.fits.address_le _ hstop
    rw [View.window, hu.nArray_eq]
    apply harray
  have hsize : (u.window.block data array records).size = records.length := Window.size_block hend
  constructor
  · simp only [true_iff]
    exact ⟨harray, hgood⟩
  · rintro array' records' dst' hcall harray'
    cases hcall
    omega
  · intro _ hmisaligned
    exact absurd hgood.1 hmisaligned
  · intro _ _ hout
    exact absurd hgood.2 hout
  · simp
  · intro hreply
    exact absurd rfl hreply
  · rintro array' records' dst' hcall -
    cases hcall
    refine ⟨rfl, size_overwrite _ _ _, ?_, ?_⟩
    · intro j hj
      have haddr :
          l.address array (records.start + j) = u.window.address array (records.start + j) := by
        rw [Layout.address, Window.address, View.window, hu.stride_eq]
      use (u.window.block data array records)[j]
      have hblock : (u.window.block data array records)[j]?
          = some (u.window.block data array records)[j] := Array.getElem?_eq_getElem _
      constructor
      · rw [haddr, ← hblock, Window.getElem?_block, if_pos hj]
      · rw [Window.load, getElem?_overwrite, ← Window.block, if_pos (by omega), Nat.sub_zero,
          hblock]
    · intro j hj
      rw [Window.load, getElem?_overwrite, ← Window.block, if_neg (by omega)]
  · simp

/-- A write that passes the check of the window replaces the records that it names. -/
theorem answered_write {records : Span} {src : Array Record} (hu : u.PartOf l data.size)
    (h : u.window.check records src.size = .ok ()) :
  Answered l u.owned data (.write records src) ⟨.ok (), src⟩ (u.window.store data records src)
  := by
  have hgood := (check_eq_ok_iff_aligned u (.write records src)).mp h
  obtain ⟨⟨hpos, hfit⟩, -, hstop⟩ := Window.check_eq_ok_iff.mp h
  have hend : records.stop ≤ data.size := by
    rw [← u.window.address_zero records.stop]
    apply hu.fits.address_le _ hstop
    rw [View.window, hu.nArray_eq]
    apply hu.nArray_pos
  constructor
  · simp only [true_iff]
    exact ⟨trivial, hgood⟩
  · simp
  · intro _ hmisaligned
    exact absurd hgood.1 hmisaligned
  · intro _ _ hout
    exact absurd hgood.2 hout
  · simp
  · intro hreply
    exact absurd rfl hreply
  · simp
  · rintro records' src' hcall -
    cases hcall
    refine ⟨rfl, Window.size_store _ _ _ _, ?_, ?_⟩
    · intro j hj
      have hlen : records.length = records.stop - records.start := rfl
      have hmem : records.start + j ∈ records := Span.mem_iff.mpr (by omega)
      have hsrc : src[j]? = some src[j] := Array.getElem?_eq_getElem _
      use src[j], hsrc
      rw [Layout.address, Nat.zero_mul, Nat.zero_add, Window.getElem?_store hfit,
        if_pos ⟨hmem, by omega⟩, Nat.add_sub_cancel_left, hsrc]
    · intro p hp
      rw [Window.getElem?_store hfit, if_neg]
      rintro ⟨hmem, -⟩
      apply hp hmem

/-- Every call to the storage of a part of a layout is answered as it has to be. The size of the
slice stays the same, so that the next call finds it as the layout needs it. -/
theorem answered_access (hu : u.PartOf l data.size) (call : Access) :
  ∃ answer data', u.storage.access data call = (answer, data') ∧
    Answered l u.owned data call answer data' ∧ data'.size = data.size
  := by
  cases call with
  | read array records dst =>
    rw [access, read_storage hu.fits, Window.read]
    by_cases harray : l.nArray ≤ array
    · rw [if_pos (show u.window.nArray ≤ array by rw [View.window, hu.nArray_eq]; exact harray)]
      exact ⟨_, data, rfl, answered_of_unknown records dst harray, rfl⟩
    · rw [if_neg (show ¬ u.window.nArray ≤ array by rw [View.window, hu.nArray_eq]; exact harray)]
      cases hcheck : u.window.check records dst.size with
      | error cause =>
        exact ⟨_, data, rfl, answered_of_check_error (Nat.not_le.mp harray) hcheck, rfl⟩
      | ok => exact ⟨_, data, rfl, answered_read hu (Nat.not_le.mp harray) hcheck, rfl⟩
  | write records src =>
    have hn : 0 < u.nArray := by
      rw [hu.nArray_eq]
      apply hu.nArray_pos
    rw [access, write_storage hn hu.fits, Window.write]
    cases hcheck : u.window.check records src.size with
    | error cause => exact ⟨_, data, rfl, answered_of_check_error trivial hcheck, rfl⟩
    | ok => exact ⟨_, _, rfl, answered_write hu hcheck, Window.size_store _ _ _ _⟩

/-- So is every call of any sequence. -/
theorem along_accesses {calls : List (View × Access)}
    (h : ∀ c ∈ calls, c.1.PartOf l data.size) :
  ∃ answers data',
    accesses data (calls.map fun c => (c.1.storage, c.2)) = (answers, data') ∧
      Along l data calls answers data'
  := by
  induction calls generalizing data with
  | nil => exact ⟨[], data, rfl, .nil data⟩
  | cons c rest ih =>
    obtain ⟨answer, next, haccess, hanswered, hsize⟩ := answered_access (h c (.head _)) c.2
    have hrest : ∀ c' ∈ rest, c'.1.PartOf l next.size := by
      intro c' hc'
      rw [hsize]
      apply h c' (.tail _ hc')
    obtain ⟨answers, data', haccesses, halong⟩ := ih hrest
    use answer :: answers, data'
    constructor
    · simp only [List.map_cons, accesses, haccess, haccesses]
    · apply Along.cons hanswered halong

/-- However the view of a layout is split, the views in use have storages, which answer any sequence
of calls as they have to, each call on what those before it left of the slice. They read and write
what the windows on the views do. -/
theorem accesses_answered {v : View} (h : View.ofLayout l data.size = .ok v)
    (t : Splitting l.nRecord) :
  ∃ views, t.views v = .ok views ∧
    (∀ u ∈ views, u.rankStorage = .ok u.storage ∧ ∀ d : Data, d.size = data.size →
      (∀ array records dst, u.storage.read d array records dst
        = (u.window.read d array records dst).mapError .refused) ∧
      ∀ records src, u.storage.write d records src
        = (u.window.write d records src).mapError .refused) ∧
    ∀ calls : List (View × Access), (∀ c ∈ calls, c.1 ∈ views) →
      ∃ answers data',
        accesses data (calls.map fun c => (c.1.storage, c.2)) = (answers, data') ∧
          Along l data calls answers data'
  := by
  have hv : v.nRecord = l.nRecord := by
    obtain ⟨-, -, -, rfl⟩ := View.ofLayout_eq_ok_iff.mp h
    rfl
  obtain ⟨views, hviews, hwithin, -⟩ := t.views_eq_ok hv
  have hpart : ∀ u ∈ views, u.PartOf l data.size := fun u hu => (hwithin u hu).partOf h
  refine ⟨views, hviews, ?_, ?_⟩
  · intro u hu
    use View.rankStorage_eq_ok ((hpart u hu).nArray_eq ▸ (hpart u hu).nArray_pos)
      ((hwithin u hu).step_eq.trans (View.Of.ofLayout h).step_eq)
    intro d hd
    have hfits : u.window.Fits d.size := hd ▸ (hpart u hu).fits
    constructor
    · intro array records dst
      apply read_storage hfits
    · intro records src
      apply write_storage _ hfits
      rw [(hpart u hu).nArray_eq]
      apply (hpart u hu).nArray_pos
  · intro calls hcalls
    apply along_accesses
    intro c hc
    apply hpart c.1 (hcalls c hc)

/-- Two arrays of eight records, split after three of them. What the back part writes it reads back,
and an inverted span counts as one without records for the front part. -/
theorem accesses_answered_write_read :
  ∃ one two : Record, one = Lanes.splat 1 ∧ two = Lanes.splat 2 ∧
    ∃ first second third data',
      accesses (Array.replicate 18 Lanes.zero)
          [(View.storage ⟨2, 10, 3, 5, 1⟩, .write ⟨4, 6⟩ #[one, two]),
            (View.storage ⟨2, 10, 3, 5, 1⟩, .read 0 ⟨5, 6⟩ #[one, one]),
            (View.storage ⟨2, 10, 0, 3, 1⟩, .write ⟨6, 4⟩ #[one])]
        = ([first, second, third], data') ∧
      second.buffer[0]? = some two ∧ third.reply = .error (.refused (.misaligned 0 1))
  := by
  use Lanes.splat 1, Lanes.splat 2, rfl, rfl
  have hview : View.ofLayout ⟨2, 8, 10⟩ (Array.replicate 18 (Lanes.zero : Record)).size
      = .ok ⟨2, 10, 0, 8, 1⟩ := by
    rw [Array.size_replicate]
    rfl
  obtain ⟨views, hviews, -, hcalls⟩ :=
    accesses_answered hview (.part 3 (by decide) .keep .keep)
  obtain rfl : [⟨2, 10, 0, 3, 1⟩, ⟨2, 10, 3, 5, 1⟩] = views := Except.ok.inj hviews
  obtain ⟨answers, data', haccesses, halong⟩ := hcalls
    [(⟨2, 10, 3, 5, 1⟩, .write ⟨4, 6⟩ #[Lanes.splat 1, Lanes.splat 2]),
      (⟨2, 10, 3, 5, 1⟩, .read 0 ⟨5, 6⟩ #[Lanes.splat 1, Lanes.splat 1]),
      (⟨2, 10, 0, 3, 1⟩, .write ⟨6, 4⟩ #[Lanes.splat 1])]
    (by simp)
  cases halong with | cons hfirst halong =>
  cases halong with | cons hsecond halong =>
  cases halong with | cons hthird halong =>
  cases halong
  refine ⟨_, _, _, _, haccesses, ?_, ?_⟩
  · obtain ⟨-, -, hwritten, -⟩ := hfirst.write _ _ rfl
      (hfirst.ok_iff.mpr ⟨trivial, by decide, by decide⟩)
    obtain ⟨-, -, hread, -⟩ := hsecond.read _ _ _ rfl
      (hsecond.ok_iff.mpr ⟨by decide, by decide, by decide⟩)
    obtain ⟨record, hsrc, hdata⟩ := hwritten 1 (by decide)
    obtain ⟨record', hdata', hbuffer⟩ := hread 0 (by decide)
    obtain rfl : Lanes.splat 2 = record := Option.some.inj hsrc
    rw [hbuffer, ← hdata']
    apply hdata
  · apply hthird.misaligned trivial
    decide

end Storage

end ReplicaSum
