import ReplicaSum.Proofs.Reducer
import ReplicaSum.Proofs.Sequential

/-!
# The block loop on a sequential engine

A sequential engine parks how a transfer went until the transfer is waited for. So the reducer
learns that a block can't be fetched only when it wants to consume the block; by then, the block
before it has been summed and stored. `Sequential.Parked` is what holds between two blocks, whether
or not the next one can be fetched.
-/

namespace ReplicaSum

/-- What comes of a transfer depends only on the positions that it reads. -/
theorem Transfer.outcome_congr {w : Window} {t : Transfer} {d e : Data}
    (h : AgreeOn (· ∈ t.reads w) d e) :
  (t.perform w d).1 = (t.perform w e).1
  := by
  cases hcheck : t.check w with
  | error cause => rw [perform_of_check_error hcheck, perform_of_check_error hcheck]
  | ok =>
    rw [perform_of_check_ok hcheck, perform_of_check_ok hcheck]
    apply congrArg Except.ok (filled_congr h)

/-- Fetching changes no record of the slice. -/
theorem Transfer.perform_get_snd (w : Window) (data : Data) (array : Nat) (records : Span)
    (buffer : Buffer) :
  ((Transfer.get array records buffer).perform w data).2 = data
  := by
  rw [perform]
  split <;> rfl

namespace Sequential

open Reducer

variable {w : Window} {s s₁ s' : Sequential} {data data' : Data} {tag : Tag}
variable {tags tags' : Tag → Prop} {room : Nat} {a : Fin maxArray} {as : List (Fin maxArray)}
variable {next : Option Span} {cause : TransferError}

/-- The engine with the slot of a tag replaced. -/
def setSlot (s : Sequential) (tag : Tag) (outcome : Option (Except TransferError Buffer)) :
    Sequential :=
  { s with slots := s.slots.set tag outcome }

/-- Apart from the tags in `tags`, two engines hold the same. -/
structure SameOff (tags : Tag → Prop) (s s' : Sequential) : Prop where
  window_eq : s'.window = s.window
  slot_eq : ∀ u, ¬ tags u → s'.slots.get? u = s.slots.get? u

namespace SameOff

theorem refl (tags : Tag → Prop) (s : Sequential) : SameOff tags s s := ⟨rfl, fun _ _ => rfl⟩

theorem trans (h : SameOff tags s s₁) (h' : SameOff tags s₁ s') : SameOff tags s s' :=
  ⟨h'.window_eq.trans h.window_eq, fun u hu => (h'.slot_eq u hu).trans (h.slot_eq u hu)⟩

theorem mono (h : SameOff tags s s') (htags : ∀ u, tags u → tags' u) : SameOff tags' s s' :=
  ⟨h.window_eq, fun u hu => h.slot_eq u (mt (htags u) hu)⟩

theorem setSlot {outcome : Option (Except TransferError Buffer)} (htag : tags tag) :
    SameOff tags s (s.setSlot tag outcome) where
  window_eq := rfl
  slot_eq u hu := by
    rw [Sequential.setSlot, TagSlots.get?_set, if_neg]
    rintro rfl
    apply hu htag

end SameOff

/-! ### Calls -/

/-- A transfer under a free tag is carried out, and how it went is parked. -/
theorem runs_submit {t : Transfer} (h : s.slots.get? tag = none) (data : Data) :
  RankM.Runs Call.Any (RankM.ask (Session.request (.submit tag t))) s data (.ok ())
    (s.setSlot tag (some (t.perform s.window data).1)) (t.perform s.window data).2
  := by
  apply RankM.Runs.ask
  · have hfree : s.slots.isPending tag = false := by
      rw [TagSlots.isPending, h]
      rfl
    simp only [Session.request, Session.run, TransferEngine.answer, submit, hfree]
    rfl
  · exact ⟨trivial, trivial⟩

/-- Waiting hands out what is parked under the tag. -/
theorem runs_wait {held : Option Buffer} (h : s.slots.get? tag = held.map .ok) (data : Data) :
  RankM.Runs Call.Any (RankM.wait tag) s data (.ok held) (s.setSlot tag none) data
  := by
  apply RankM.Runs.ask
  · simp only [Session.request, Session.run, TransferEngine.answer, wait, TagSlots.take, h]
    cases held <;> rfl
  · exact ⟨trivial, trivial⟩

/-- Waiting for a transfer that failed fails. -/
theorem runs_wait_error (h : s.slots.get? tag = some (.error cause)) (data : Data) :
  RankM.Runs Call.Any (RankM.wait tag) s data (.error (.error (.transfer cause)))
    (s.setSlot tag none) data
  := by
  apply RankM.Runs.ask_error
  · simp only [Session.request, Session.run, TransferEngine.answer, wait, TagSlots.take, h]
    rfl
  · exact ⟨trivial, trivial⟩

/-! ### Fetching -/

/-- The slot of array `a` says how it went to fetch the records of a span into a buffer with room
for `room` of them. Without a span, it is free. -/
def Asked (s : Sequential) (data : Data) (room : Nat) (a : Fin maxArray) : Option Span → Prop
  | none => s.slots.get? (.input a) = none
  | some records => ∃ buffer, buffer.records.size = room ∧
      s.slots.get? (.input a)
        = some ((Transfer.get a records buffer).perform s.window data).1

/-- What has been asked for is not affected by what happens under other tags and to other
records. -/
theorem Asked.congr (h : s.Asked data room a next) (hsame : SameOff tags s s')
    (htags : ¬ tags (.input a))
    (hdata : ∀ records, next = some records → ∀ buffer,
      AgreeOn (· ∈ (Transfer.get a records buffer).reads s.window) data' data) :
  s'.Asked data' room a next
  := by
  cases next with
  | none => exact (hsame.slot_eq _ htags).trans h
  | some records =>
    obtain ⟨buffer, hsize, hslot⟩ := h
    use buffer, hsize
    rw [hsame.slot_eq _ htags, hslot, hsame.window_eq,
      Transfer.outcome_congr (hdata records rfl buffer)]

/-- Beginning to fetch never fails: if it can't be done, this is parked. -/
theorem runs_beginGet (h : s.slots.get? (.input a) = none) (records : Span) (buffer : Buffer)
    (data : Data) :
  ∃ s', RankM.Runs Call.Any (RankM.beginGet (.input a) a records buffer) s data (.ok ()) s' data ∧
    SameOff (· = .input a) s s' ∧ s'.Asked data buffer.records.size a (some records)
  := by
  have hruns := runs_submit (t := .get a records buffer) h data
  rw [Transfer.perform_get_snd] at hruns
  use s.setSlot (.input a) (some ((Transfer.get a records buffer).perform s.window data).1), hruns
  constructor
  · exact SameOff.setSlot rfl
  · use buffer, rfl
    rw [setSlot, TagSlots.get?_set, if_pos rfl]

theorem runs_refill (h : s.slots.get? (.input a) = none) (next : Option Span) (buffer : Buffer)
    (data : Data) :
  ∃ s', RankM.Runs Call.Any (Bare.refill a next buffer) s data (.ok ()) s' data ∧
    SameOff (· = .input a) s s' ∧ s'.Asked data buffer.records.size a next
  := by
  cases next with
  | none => exact ⟨s, .pure () s data, .refl _ s, h⟩
  | some records => exact runs_beginGet h records buffer data

/-- What a sequential engine holds for the arrays. -/
def stock (data : Data) (room : Nat) : Stock Sequential where
  SameOff := SameOff
  Holds s a next := s.Asked data room a next
  refl := .refl
  trans := .trans
  mono := .mono
  congr h hsame htags := h.congr hsame htags fun _ _ _ => .refl _ _

/-- Priming never fails. -/
theorem runs_prime (scratch : Scratch) (first : Span) (as : List (Fin maxArray))
    (hnodup : as.Nodup) (hslot : ∀ a ∈ as, s.slots.get? (.input a) = none) (data : Data) :
  ∃ s', RankM.Runs Call.Any (Bare.prime scratch first as) s data (.ok ()) s' data ∧
    SameOff (IsInput as) s s' ∧ ∀ a ∈ as, s'.Asked data scratch.blockLen a (some first)
  := by
  suffices h : ∃ (c : Unit) (s' : Sequential),
      RankM.Runs Call.Any (Bare.prime scratch first as) s data (.ok c) s' data ∧
      SameOff (IsInput as) s s' ∧
      (∀ a ∈ as, s'.Asked data scratch.blockLen a (some first)) ∧ True by
    obtain ⟨⟨⟩, s', hruns, hsame, hasked, -⟩ := h
    exact ⟨s', hruns, hsame, hasked⟩
  refine (stock data scratch.blockLen).runs_turns none (some first)
    (fun as _ => Bare.prime scratch first as) (fun _ _ => True) (fun _ _ _ => True) (fun _ => rfl)
    (fun _ => trivial) as hnodup ?_ (c := ()) trivial hslot
  intro a _ rest s c _ hslot
  obtain ⟨s₁, hrun, hsame, hasked⟩ := runs_beginGet hslot first (scratch.stagedBuffer a) data
  rw [scratch.size_stagedBuffer a] at hasked
  exact ⟨(), s₁, hsame, hasked, trivial, fun _ _ => trivial, fun _ _ hrest => hrun.bind hrest⟩

/-! ### Consuming -/

/-- One array has its turn: its block is put into the running sum, and its next block is asked
for. -/
theorem runs_consume_cons {cur : Span} {sum : BlockSum} (next : Option Span)
    (rest : List (Fin maxArray)) (hw : s.window = w) (hfits : w.Fits data.size)
    (hcur : w.check cur room = .ok ()) (ha : a < w.nArray)
    (hasked : s.Asked data room a (some cur)) (hsum : room ≤ sum.size) :
  ∃ sum₁ s₁,
    SameOff (· = .input a) s s₁ ∧ s₁.Asked data room a next ∧
    Absorbed w data cur [a] sum sum₁ ∧
    ∀ {outcome s' data'},
      RankM.Runs Call.Any (Bare.consume cur.length next rest sum₁) s₁ data outcome s' data' →
      RankM.Runs Call.Any (Bare.consume cur.length next (a :: rest) sum) s data outcome s' data'
  := by
  obtain ⟨buffer, hsize, hslot⟩ := hasked
  obtain ⟨⟨-, hroom⟩, -, hstop⟩ := Window.check_eq_ok_iff.mp hcur
  have hcheck : (Transfer.get a cur buffer).check w = .ok () := by
    rw [Transfer.check, if_neg (by omega), hsize, hcur]
  rw [hw, Transfer.perform_of_check_ok hcheck] at hslot
  have hinside := hfits.address_le ha hstop
  have hheld : (w.load data a cur buffer.records).size = room :=
    (size_overwrite _ _ _).trans hsize
  have htake := Window.take_load (hsize ▸ hroom) hinside
  have hlen : cur.length ≤ sum.size := Nat.le_trans hroom hsum
  have hwait : RankM.Runs Call.Any (RankM.wait (.input a)) s data
      (.ok (some { buffer with records := w.load data a cur buffer.records }))
      (s.setSlot (.input a) none) data := runs_wait hslot data
  obtain ⟨sum₁, habsorbed, hruns⟩ :=
    runs_consume_of_wait hwait htake (hheld ▸ hroom) hlen hinside next rest
  have hfree : (s.setSlot (.input a) none).slots.get? (.input a) = none := by
    rw [setSlot, TagSlots.get?_set, if_pos rfl]
  obtain ⟨s₁, hrefill, hsame, hasked⟩ := runs_refill hfree next
    { buffer with records := w.load data a cur buffer.records } data
  rw [hheld] at hasked
  have hfreed : SameOff (· = .input a) s (s.setSlot (.input a) none) := SameOff.setSlot rfl
  use sum₁, s₁
  constructor
  · apply hfreed.trans hsame
  constructor
  · apply hasked
  constructor
  · apply habsorbed
  · intro outcome s' data' hrest
    apply hruns (hrefill.bind hrest)

/-- Consuming a block of every array gives, at the front of the running sum, the sums of the records
of the block. Whether the next block can be fetched makes no difference. -/
theorem runs_consume {cur : Span} (next : Option Span) (hw : s.window = w)
    (hfits : w.Fits data.size) (hcur : w.check cur room = .ok ())
    (as : List (Fin maxArray)) (hnodup : as.Nodup) (has : ∀ a ∈ as, a < w.nArray)
    (hasked : ∀ a ∈ as, s.Asked data room a (some cur)) {sum : BlockSum} (hsum : room ≤ sum.size) :
  ∃ sum' s', RankM.Runs Call.Any (Bare.consume cur.length next as sum) s data (.ok sum') s' data ∧
    SameOff (IsInput as) s s' ∧ (∀ a ∈ as, s'.Asked data room a next) ∧
    Absorbed w data cur as sum sum'
  := by
  refine (stock data room).runs_turns (some cur) next (Bare.consume cur.length next)
    (fun s sum => s.window = w ∧ room ≤ sum.size) (Absorbed w data cur) (fun _ => rfl)
    (Absorbed.nil w data cur) as hnodup ?_ ⟨hw, hsum⟩ hasked
  rintro a ha rest s sum ⟨hw, hsum⟩ hasked
  obtain ⟨sum₁, s₁, hsame, hasked₁, habsorbed, hruns⟩ :=
    runs_consume_cons next rest hw hfits hcur (has a ha) hasked hsum
  use sum₁, s₁, hsame, hasked₁
  constructor
  · exact ⟨hsame.window_eq.trans hw, habsorbed.size_eq ▸ hsum⟩
  · exact ⟨fun _ => habsorbed.cons, fun _ _ => hruns⟩

/-- A block that can't be fetched fails the reducer when it is to be consumed. -/
theorem runs_consume_error {cur : Span} {sum : BlockSum} (next : Option Span)
    (rest : List (Fin maxArray)) (hw : s.window = w)
    (hcause : ∀ buffer : Buffer, buffer.records.size = room →
      (Transfer.get a cur buffer).check w = .error cause)
    (hasked : s.Asked data room a (some cur)) :
  ∃ s', RankM.Runs Call.Any (Bare.consume cur.length next (a :: rest) sum) s data
      (.error (.error (.transfer cause))) s' data
  := by
  obtain ⟨buffer, hsize, hslot⟩ := hasked
  rw [hw, Transfer.perform_of_check_error (hcause buffer hsize)] at hslot
  use s.setSlot (.input a) none
  apply RankM.Runs.bind_error (runs_wait_error hslot data)

/-! ### Storing -/

/-- A block is stored at once. -/
theorem runs_emit {out : Tag} {cur : Span} {sum : BlockSum} {returned spare : Option Buffer}
    {b : Buffer} (hw : s.window = w) (hslot : s.slots.get? out = returned.map .ok)
    (hb : returned.or spare = some b) (hcur : w.check cur b.records.size = .ok ())
    (hsum : cur.length ≤ sum.size) :
  ∃ b' spare' s' data',
    RankM.Runs Call.Any (Bare.emit out cur sum spare) s data (.ok spare') s' data' ∧
    SameOff (· = out) s s' ∧ s'.slots.get? out = some (.ok b') ∧
    b'.records.size = b.records.size ∧ data'.size = data.size ∧
    ∀ i, data'[i]? =
      if i ∈ cur ∧ i < data.size then sum[i - cur.start]?.map Lanes.demote else data[i]?
  := by
  subst hw
  have hroom := (Window.check_eq_ok_iff.mp hcur).1.2
  obtain ⟨b', spare', -, hsize, hstored, hruns⟩ :=
    runs_emit_of_wait (w := s.window) (runs_wait hslot data) hb hroom hsum
  have hcheck : (Transfer.put cur b').check s.window = .ok () := by
    rw [Transfer.check, hsize, hcur]
  have hfree : (s.setSlot out none).slots.get? out = none := by
    rw [setSlot, TagSlots.get?_set, if_pos rfl]
  have hput := runs_submit (t := .put cur b') hfree data
  have hperform : (Transfer.put cur b').perform (s.setSlot out none).window data
      = (.ok b', s.window.store data cur b'.records) := Transfer.perform_of_check_ok hcheck data
  rw [hperform] at hput
  have hfreed : SameOff (· = out) s (s.setSlot out none) := SameOff.setSlot rfl
  have hbegun : SameOff (· = out) (s.setSlot out none)
      ((s.setSlot out none).setSlot out (some (.ok b'))) := SameOff.setSlot rfl
  use b', spare', (s.setSlot out none).setSlot out (some (.ok b'))
  use s.window.store data cur b'.records, hruns hput, hfreed.trans hbegun
  constructor
  · rw [setSlot, TagSlots.get?_set, if_pos rfl]
  constructor
  · apply hsize
  constructor
  · apply Window.size_store _ _ _ _
  · apply hstored

/-! ### The loop -/

/-- What holds between two blocks, when `blocks` are still to be reduced: the first of them has been
asked for, and there is a buffer for the outgoing blocks. -/
structure Parked (as : List (Fin maxArray)) (out : Tag) (room : Nat) (blocks : List Span)
    (spare : Option Buffer) (s : Sequential) (data : Data) : Prop where
  asked : ∀ a ∈ as, s.Asked data room a blocks.head?
  outgoing : ∃ (returned : Option Buffer) (b : Buffer),
    s.slots.get? out = returned.map .ok ∧ returned.or spare = some b ∧ room ≤ b.records.size

variable {nArray : Nat} {out : Tag} {blocks : List Span} {spare : Option Buffer}

/-- One block is reduced, whether or not the next one can be fetched. -/
theorem runs_block {cur : Span} {sum : BlockSum} {stop : Nat} (hw : s.window = w)
    (hfits : w.Fits data.size) (hn₀ : 0 < nArray) (hn : nArray ≤ w.nArray)
    (hout : ¬ IsInput (arrays nArray) out) (hcur : w.check cur room = .ok ())
    (htiles : Span.Tiles cur.stop stop blocks) (hsum : room ≤ sum.size)
    (h : Parked (arrays nArray) out room (cur :: blocks) spare s data) :
  ∃ sum' spare' s₁ s' data',
    RankM.Runs Call.Any (Bare.consume cur.length blocks.head? (arrays nArray) sum) s data
      (.ok sum') s₁ data ∧
    RankM.Runs Call.Any (Bare.emit out cur sum' spare) s₁ data (.ok spare') s' data' ∧
    s'.window = w ∧ Parked (arrays nArray) out room blocks spare' s' data' ∧
    sum'.size = sum.size ∧ Reduced w.stride nArray (· ∈ cur) data data'
  := by
  have hroom := (Window.check_eq_ok_iff.mp hcur).1.2
  obtain ⟨sum', s₁, hconsume, hsame₁, hasked₁, habsorbed⟩ :=
    runs_consume blocks.head? hw hfits hcur (arrays nArray) (nodup_arrays nArray)
      (fun a ha => Nat.lt_of_lt_of_le (mem_arrays.mp ha) hn) h.asked hsum
  have hw₁ : s₁.window = w := hsame₁.window_eq.trans hw
  have hsize := habsorbed.size_eq
  have hlen' : cur.length ≤ sum'.size := by omega
  obtain ⟨returned, b, hslot, hb, hlen⟩ := h.outgoing
  rw [← hsame₁.slot_eq out hout] at hslot
  have hfit : w.check cur b.records.size = .ok () := by
    rw [Window.check_eq_ok_iff] at hcur ⊢
    exact ⟨⟨hcur.1.1, Nat.le_trans hcur.1.2 hlen⟩, hcur.2⟩
  obtain ⟨b', spare', s', data', hemit, hsame', hslot', hsize', hdsize, hdata⟩ :=
    runs_emit hw₁ hslot hb hfit hlen'
  have hreduced : Reduced w.stride nArray (· ∈ cur) data data' :=
    reduced_of_sum hn₀ (Nat.le_trans hn hfits.nArray_le) (by omega) habsorbed hdsize hdata
  use sum', spare', s₁, s', data', hconsume, hemit, hsame'.window_eq.trans hw₁
  constructor
  · constructor
    · intro a ha
      apply (hasked₁ a ha).congr hsame'
      · intro hao
        apply hout ⟨a, ha, hao.symm⟩
      · -- The next block lies behind the one that has been stored.
        intro records hrecords buffer
        use hdsize
        intro i hi
        apply hreduced.kept
        have := s₁.window.le_address a records.start
        have := (htiles.bounds (List.mem_of_mem_head? hrecords)).1
        simp only [Transfer.reads, Span.mem_iff] at hi ⊢
        omega
    · use some b', b', hslot', rfl
      omega
  · exact ⟨hsize, hreduced⟩

/-- The loop reduces the blocks before the first one that can't be fetched, and fails there. -/
theorem runs_reduceBlocks_error {start stop : Nat} {bad : Span} {rest : List Span}
    (hfits : w.Fits data.size) (hn₀ : 0 < nArray) (hn : nArray ≤ w.nArray)
    (hout : ¬ IsInput (arrays nArray) out) (good : List Span)
    (hgood : ∀ b ∈ good, w.check b room = .ok ()) (hbad : w.check bad room = .error cause)
    (htiles : Span.Tiles start stop (good ++ bad :: rest)) {sum : BlockSum}
    (hsum : room ≤ sum.size) (report : RankReport) (hw : s.window = w)
    (h : Parked (arrays nArray) out room (good ++ bad :: rest) spare s data) :
  ∃ s' data',
    RankM.Runs Call.Any
      (Bare.reduceBlocks (arrays nArray) out (good ++ bad :: rest) sum spare report) s data
      (.error (.error (.transfer cause))) s' data' ∧
    Reduced w.stride nArray (fun i => ∃ b ∈ good, i ∈ b) data data'
  := by
  induction good generalizing start s data sum spare report with
  | nil =>
    obtain ⟨as, has⟩ := arrays_eq_cons hn₀ (Nat.le_trans hn hfits.nArray_le)
    have hasked := h.asked 0 (mem_arrays.mpr hn₀)
    have hcause : ∀ buffer : Buffer, buffer.records.size = room →
        (Transfer.get 0 bad buffer).check w = .error cause := by
      rintro buffer rfl
      rw [Transfer.check, if_neg (by omega), hbad]
    obtain ⟨s', hconsume⟩ := runs_consume_error rest.head? as hw hcause hasked
    use s', data
    constructor
    · rw [has]
      apply RankM.Runs.bind_error hconsume
    · apply Reduced.of_forall_not
      simp
  | cons cur good ih =>
    cases htiles with
    | cons hcur htiles =>
    obtain ⟨sum', spare', s₁, s₂, data₂, hconsume, hemit, hw', hparked, hsize, hreduced⟩ :=
      runs_block hw hfits hn₀ hn hout (hgood cur List.mem_cons_self) htiles hsum h
    obtain ⟨s', data', hloop, hreduced'⟩ :=
      ih (hreduced.size_eq ▸ hfits) (fun b hb => hgood b (List.mem_cons_of_mem cur hb)) htiles
        (hsize ▸ hsum) (report.addBlock cur.length) hw' hparked
    use s', data'
    constructor
    · apply hconsume.bind (hemit.bind hloop)
    · apply hreduced.cons_blocks hreduced' hn₀
      intro b hb
      apply (htiles.bounds (List.mem_append_left _ hb)).1

end Sequential

end ReplicaSum
