import ReplicaSum.Transfer
import Mathlib.Tactic.Common

/-!
# Footprints

What a transfer through a window can see and change. A window that fits a slice touches only its
footprint, the positions of its own records, and no two of them coincide. A transfer reads the
positions of `Transfer.reads` and changes those of `Transfer.writes`. What it does depends on
nothing else in the data, which is stated by means of slices that agree on a set of positions.
-/

namespace ReplicaSum

/-- Slices of the same size with the same records at the positions in `F`. -/
structure AgreeOn (F : Nat → Prop) (d e : Data) : Prop where
  size_eq : d.size = e.size
  getElem?_eq : ∀ i, F i → d[i]? = e[i]?

namespace AgreeOn

variable {F G : Nat → Prop} {d e f : Data}

theorem refl (F : Nat → Prop) (d : Data) : AgreeOn F d d := ⟨rfl, fun _ _ => rfl⟩

theorem symm (h : AgreeOn F d e) : AgreeOn F e d :=
  ⟨h.size_eq.symm, fun i hi => (h.getElem?_eq i hi).symm⟩

theorem trans (h : AgreeOn F d e) (h' : AgreeOn F e f) : AgreeOn F d f :=
  ⟨h.size_eq.trans h'.size_eq, fun i hi => (h.getElem?_eq i hi).trans (h'.getElem?_eq i hi)⟩

theorem mono (h : AgreeOn G d e) (hF : ∀ i, F i → G i) : AgreeOn F d e :=
  ⟨h.size_eq, fun i hi => h.getElem?_eq i (hF i hi)⟩

end AgreeOn

namespace Window

variable {w : Window} {data d e : Data} {s : Span} {a i size : Nat}

/-- A window whose records have distinct places in a slice of `size` records. -/
structure Fits (w : Window) (size : Nat) : Prop where
  nArray_le : w.nArray ≤ maxArray
  stop_le_stride : w.nArray ≤ 1 ∨ w.owned.stop ≤ w.stride
  inside : (w.nArray - 1) * w.stride + w.owned.stop ≤ size

/-- The positions in the slice of the records of a window. -/
def Footprint (w : Window) (p : Nat) : Prop :=
  ∃ a < w.nArray, ∃ i ∈ w.owned, p = w.address a i

@[simp]
theorem address_zero (w : Window) (i : Nat) :
  w.address 0 i = i
  := by
  simp [address]

theorem le_address (w : Window) (a i : Nat) :
  i ≤ w.address a i
  := Nat.le_add_left _ _

/-- The positions of the records of a window lie inside of a slice that it fits. -/
theorem Fits.address_le (h : w.Fits size) (ha : a < w.nArray) (hi : i ≤ w.owned.stop) :
  w.address a i ≤ size
  := by
  have hmul : a * w.stride ≤ (w.nArray - 1) * w.stride := Nat.mul_le_mul_right _ (by omega)
  have := h.inside
  rw [address]
  omega

/-- The spans that pass the check are not empty, fit the buffer and lie in the window. -/
theorem check_eq_ok_iff {capacity : Nat} :
  w.check s capacity = .ok ()
    ↔ (0 < s.length ∧ s.length ≤ capacity) ∧ w.owned.start ≤ s.start ∧ s.stop ≤ w.owned.stop
  := by
  rw [check]
  split
  · rename_i h
    simp only [Span.isEmpty_iff] at h
    simp only [reduceCtorEq, false_iff]
    omega
  · rename_i h
    simp only [Span.isEmpty_iff] at h
    split
    · simp only [reduceCtorEq, false_iff]
      omega
    · simp only [true_iff]
      omega

/-! ### Reading -/

/-- The records of an array in a span. -/
def block (w : Window) (data : Data) (a : Nat) (s : Span) : Array Record :=
  data.extract (w.address a s.start) (w.address a s.stop)

theorem getElem?_block (w : Window) (data : Data) (a : Nat) (s : Span) (j : Nat) :
  (w.block data a s)[j]? = if j < s.length then data[w.address a (s.start + j)]? else none
  := by
  have hsum : w.address a s.start + j = w.address a (s.start + j) := by
    simp only [address]
    omega
  rw [block, Array.getElem?_extract, hsum]
  by_cases hj : j < s.length
  · rw [if_pos hj]
    split
    · rfl
    · rw [Array.getElem?_eq_none]
      simp only [address, Span.length] at *
      omega
  · rw [if_neg hj, if_neg]
    simp only [address, Span.length] at *
    omega

theorem size_block (h : w.address a s.stop ≤ data.size) :
  (w.block data a s).size = s.length
  := by
  rw [block, Array.size_extract, Nat.min_eq_left h]
  simp only [address, Span.length]
  omega

/-- The records of a span depend only on what lies at their positions. -/
theorem block_congr (h : AgreeOn (· ∈ Span.mk (w.address a s.start) (w.address a s.stop)) d e) :
  w.block d a s = w.block e a s
  := by
  apply Array.ext_getElem?
  intro j
  rw [getElem?_block, getElem?_block]
  split
  · apply h.getElem?_eq
    simp only [Span.mem_iff, address, Span.length] at *
    omega
  · rfl

/-- The front of a buffer into which a block was loaded is the block. -/
theorem take_load {dst : Array Record} (hdst : s.length ≤ dst.size)
    (hdata : w.address a s.stop ≤ data.size) :
  (w.load data a s dst).take s.length = w.block data a s
  := by
  have hsize : (w.block data a s).size = s.length := size_block hdata
  apply Array.ext_getElem?
  intro j
  rw [Array.take_eq_extract, Array.getElem?_extract]
  by_cases hj : j < s.length
  · rw [if_pos (by simp only [load, size_overwrite]; omega)]
    rw [Nat.zero_add, load, getElem?_overwrite]
    rw [← block, if_pos (by omega), Nat.sub_zero]
  · rw [if_neg (by omega), Array.getElem?_eq_none (by omega)]

/-! ### Writing -/

@[simp]
theorem size_store (w : Window) (data : Data) (s : Span) (src : Array Record) :
  (w.store data s src).size = data.size
  := size_overwrite _ _ _

/-- Exactly the records of the span are replaced by the front of the buffer. -/
theorem getElem?_store {src : Array Record} (hsrc : s.length ≤ src.size) (i : Nat) :
  (w.store data s src)[i]? = if i ∈ s ∧ i < data.size then src[i - s.start]? else data[i]?
  := by
  have hlen : s.length = s.stop - s.start := rfl
  rw [store, getElem?_overwrite, address_zero, Array.take_eq_extract, Array.size_extract]
  by_cases hi : i ∈ s ∧ i < data.size
  · have hmem := Span.mem_iff.mp hi.1
    rw [if_pos hi, if_pos (by omega), Array.getElem?_extract, if_pos (by omega), Nat.zero_add]
  · have hmem : ¬((s.start ≤ i ∧ i < s.stop) ∧ i < data.size) := hi
    rw [if_neg hi, if_neg (by omega)]

end Window

/-- The tag that an error names. -/
def TransferError.tag? : TransferError → Option Tag
  | .tagBusy tag | .notPending tag | .timedOut tag | .disconnected tag => some tag
  | .outOfRange _ _ | .misaligned _ _ | .unknownArray _ => none

namespace Transfer

variable {w : Window} {d e : Data} {t u : Transfer} {i : Nat}

/-- The check that a transfer has to pass before any record is moved. -/
def check (w : Window) : Transfer → Except TransferError Unit
  | .get array records buffer =>
    if w.nArray ≤ array then .error (.unknownArray array)
    else w.check records buffer.records.size
  | .put records buffer => w.check records buffer.records.size

/-- The buffer of a transfer once the transfer is done. -/
def filled (w : Window) (data : Data) : Transfer → Buffer
  | .get array records buffer =>
    { buffer with records := w.load data array records buffer.records }
  | .put _ buffer => buffer

/-- The data once a transfer is done. -/
def stored (w : Window) (data : Data) : Transfer → Data
  | .get _ _ _ => data
  | .put records buffer => w.store data records buffer.records

/-- The positions that a transfer reads. -/
def reads (w : Window) : Transfer → Span
  | .get array records _ => ⟨w.address array records.start, w.address array records.stop⟩
  | .put _ _ => ⟨0, 0⟩

/-- The positions that a transfer changes. -/
def writes : Transfer → Span
  | .get _ _ _ => ⟨0, 0⟩
  | .put records _ => records

/-- A transfer that passes its check is carried out in full. -/
theorem perform_of_check_ok (h : t.check w = .ok ()) (d : Data) :
  t.perform w d = (.ok (t.filled w d), t.stored w d)
  := by
  cases t with
  | get array records buffer =>
    rw [check] at h
    split at h
    · cases h
    · rename_i harray
      simp [perform, Window.read, harray, h, filled, stored, bind, Except.bind, pure, Except.pure]
  | put records buffer =>
    rw [check] at h
    simp [perform, h, filled, stored]

/-- A transfer that fails its check changes nothing. -/
theorem perform_of_check_error {cause : TransferError} (h : t.check w = .error cause) (d : Data) :
  t.perform w d = (.error cause, d)
  := by
  cases t with
  | get array records buffer =>
    rw [check] at h
    split at h
    · rename_i harray
      cases h
      simp [perform, Window.read, harray, bind, Except.bind, throw, throwThe, MonadExceptOf.throw]
    · rename_i harray
      simp [perform, Window.read, harray, h, bind, Except.bind]
  | put records buffer =>
    rw [check] at h
    simp [perform, h]

/-- A transfer that fails its check fails for a reason of its own, whatever its tag is. -/
theorem tag?_of_check_error {cause : TransferError} (h : t.check w = .error cause) :
  cause.tag? = none
  := by
  have hspan : ∀ s capacity, w.check s capacity = .error cause → cause.tag? = none := by
    intro s capacity hs
    rw [Window.check] at hs
    split at hs
    · cases hs
      rfl
    · split at hs
      · cases hs
        rfl
      · cases hs
  cases t with
  | get array records buffer =>
    rw [check] at h
    split at h
    · cases h
      rfl
    · exact hspan _ _ h
  | put records buffer => exact hspan _ _ h

@[simp]
theorem size_stored (w : Window) (d : Data) (t : Transfer) :
  (t.stored w d).size = d.size
  := by
  cases t with
  | get => rfl
  | put => exact Window.size_store _ _ _ _

theorem size_perform (w : Window) (d : Data) (t : Transfer) :
  (t.perform w d).2.size = d.size
  := by
  cases hcheck : t.check w with
  | error cause => rw [perform_of_check_error hcheck]
  | ok => rw [perform_of_check_ok hcheck, size_stored]

/-- What a transfer puts into its buffer depends only on the positions that it reads. -/
theorem filled_congr (h : AgreeOn (· ∈ t.reads w) d e) :
  t.filled w d = t.filled w e
  := by
  cases t with
  | get array records buffer =>
    have hblock : w.block d array records = w.block e array records := Window.block_congr h
    simp only [filled, Window.load]
    rw [← Window.block, hblock, Window.block]
  | put => rfl

/-- A transfer leaves alone the positions that it doesn't write. -/
theorem getElem?_stored_of_not_mem (h : t.check w = .ok ()) (hi : i ∉ t.writes) :
  (t.stored w d)[i]? = d[i]?
  := by
  cases t with
  | get => rfl
  | put records buffer =>
    have hfit := (Window.check_eq_ok_iff.mp h).1.2
    rw [stored, Window.getElem?_store hfit, if_neg]
    rintro ⟨hmem, -⟩
    apply hi hmem

/-- What a transfer writes doesn't depend on the data. -/
theorem getElem?_stored_congr (h : t.check w = .ok ()) (hsize : d.size = e.size)
    (hi : i ∈ t.writes) :
  (t.stored w d)[i]? = (t.stored w e)[i]?
  := by
  cases t with
  | get =>
    simp only [writes, Span.mem_iff] at hi
    omega
  | put records buffer =>
    have hfit := (Window.check_eq_ok_iff.mp h).1.2
    have hmem : i ∈ records := hi
    rw [stored, stored, Window.getElem?_store hfit, Window.getElem?_store hfit, hsize]
    by_cases hlt : i < e.size
    · rw [if_pos ⟨hmem, hlt⟩, if_pos ⟨hmem, hlt⟩]
    · rw [if_neg (by omega), if_neg (by omega), Array.getElem?_eq_none (by omega),
        Array.getElem?_eq_none (by omega)]

/-- A transfer through a window reads only positions of its footprint. -/
theorem footprint_of_mem_reads (h : t.check w = .ok ()) (hi : i ∈ t.reads w) :
  w.Footprint i
  := by
  cases t with
  | get array records buffer =>
    rw [check] at h
    split at h
    · cases h
    · rename_i harray
      obtain ⟨-, hstart, hstop⟩ := Window.check_eq_ok_iff.mp h
      simp only [reads, Span.mem_iff, Window.address] at hi
      use array, by omega, i - array * w.stride
      simp only [Span.mem_iff, Window.address]
      omega
  | put =>
    simp only [reads, Span.mem_iff] at hi
    omega

/-- A transfer through a window of at least one array writes only positions of its footprint. -/
theorem footprint_of_mem_writes (h : t.check w = .ok ()) (hw : 0 < w.nArray) (hi : i ∈ t.writes) :
  w.Footprint i
  := by
  cases t with
  | get =>
    simp only [writes, Span.mem_iff] at hi
    omega
  | put records buffer =>
    obtain ⟨-, hstart, hstop⟩ := Window.check_eq_ok_iff.mp h
    simp only [writes, Span.mem_iff] at hi
    use 0, hw, i
    rw [Window.address_zero, Span.mem_iff]
    exact ⟨⟨Nat.le_trans hstart hi.1, Nat.lt_of_lt_of_le hi.2 hstop⟩, rfl⟩

/-- A transfer through a window changes nothing outside of the footprint. -/
theorem perform_frame (hw : 0 < w.nArray) (t : Transfer) (d : Data) :
  AgreeOn (fun i => ¬ w.Footprint i) (t.perform w d).2 d
  := by
  cases hcheck : t.check w with
  | error cause =>
    rw [perform_of_check_error hcheck]
    exact .refl _ d
  | ok =>
    rw [perform_of_check_ok hcheck]
    use size_stored w d t
    intro i hi
    apply getElem?_stored_of_not_mem hcheck
    intro hmem
    apply hi (footprint_of_mem_writes hcheck hw hmem)

/-- What a transfer through a window does depends on nothing outside of the footprint. -/
theorem perform_congr (t : Transfer) (h : AgreeOn w.Footprint d e) :
  (t.perform w d).1 = (t.perform w e).1
    ∧ AgreeOn w.Footprint (t.perform w d).2 (t.perform w e).2
  := by
  cases hcheck : t.check w with
  | error cause =>
    rw [perform_of_check_error hcheck, perform_of_check_error hcheck]
    exact ⟨rfl, h⟩
  | ok =>
    rw [perform_of_check_ok hcheck, perform_of_check_ok hcheck]
    constructor
    · apply congrArg Except.ok
      apply filled_congr
      apply h.mono
      intro i hi
      apply footprint_of_mem_reads hcheck hi
    · constructor
      · rw [size_stored, size_stored, h.size_eq]
      · intro i hi
        by_cases hmem : i ∈ t.writes
        · apply getElem?_stored_congr hcheck h.size_eq hmem
        · rw [getElem?_stored_of_not_mem hcheck hmem, getElem?_stored_of_not_mem hcheck hmem]
          apply h.getElem?_eq i hi

/-! ### Transfers that don't interfere -/

/-- Neither of two transfers writes where the other one reads or writes. -/
structure Compatible (w : Window) (t u : Transfer) : Prop where
  writes_writes : ∀ i ∈ t.writes, i ∉ u.writes
  writes_reads : ∀ i ∈ t.writes, i ∉ u.reads w
  reads_writes : ∀ i ∈ t.reads w, i ∉ u.writes

theorem Compatible.symm (h : Compatible w t u) : Compatible w u t where
  writes_writes i hu ht := h.writes_writes i ht hu
  writes_reads i hu ht := h.reads_writes i ht hu
  reads_writes i hu ht := h.writes_reads i ht hu

/-- A transfer fetches the same records before and after a compatible one. -/
theorem Compatible.filled_stored (h : Compatible w t u) (hu : u.check w = .ok ()) (d : Data) :
  t.filled w (u.stored w d) = t.filled w d
  := by
  apply filled_congr
  constructor
  · simp
  · intro i hi
    apply getElem?_stored_of_not_mem hu (h.reads_writes i hi)

/-! ### Transfers in order -/

/-- A transfer that writes only before `p` and reads only from `q` on. -/
structure Apart (w : Window) (p q : Nat) (t : Transfer) : Prop where
  writes_lt : ∀ i ∈ t.writes, i < p
  le_reads : ∀ i ∈ t.reads w, q ≤ i

variable {p q array : Nat} {s : Span} {b : Buffer}

theorem apart_get (h : q ≤ s.start) (p : Nat) :
  (get array s b).Apart w p q
  where
  writes_lt i hi := by
    simp only [writes, Span.mem_iff] at hi
    omega
  le_reads i hi := by
    have := w.le_address array s.start
    simp only [reads, Span.mem_iff] at hi
    omega

theorem apart_put (h : s.stop ≤ p) (q : Nat) :
  (put s b).Apart w p q
  where
  writes_lt i hi := by
    simp only [writes, Span.mem_iff] at hi
    omega
  le_reads i hi := by
    simp only [reads, Span.mem_iff] at hi
    omega

/-- Records can be fetched while only records before them are stored. -/
theorem compatible_get (h : ∀ i ∈ u.writes, i < s.start) :
  Compatible w u (get array s b)
  where
  writes_writes i hu hi := by
    simp only [writes, Span.mem_iff] at hi
    omega
  writes_reads i hu hi := by
    have := h i hu
    have := w.le_address array s.start
    simp only [reads, Span.mem_iff] at hi
    omega
  reads_writes i _ hi := by
    simp only [writes, Span.mem_iff] at hi
    omega

/-- Records can be stored while only records before them are stored and only records behind them are
fetched. -/
theorem compatible_put (h : u.Apart w s.start s.stop) :
  Compatible w u (put s b)
  where
  writes_writes i hu hi := by
    have := h.writes_lt i hu
    simp only [writes, Span.mem_iff] at hi
    omega
  writes_reads i _ hi := by
    simp only [reads, Span.mem_iff] at hi
    omega
  reads_writes i hu hi := by
    have := h.le_reads i hu
    simp only [writes, Span.mem_iff] at hi
    omega

end Transfer

end ReplicaSum
