import ReplicaSum.Proofs.Timeouts

/-!
# What is still to be collected

A ticket in a slot stands for an accepted transfer and for the channel over which the client will be
told how it went. That is how it goes on the data that the transfers accepted before it left, for
however long the client leaves it in the slot. And from whatever state on, the worker serves
everything that has been accepted: what is stored in the end doesn't depend on what the client
collects.
-/

namespace ReplicaSum

/-! ### What is in flight -/

namespace TagSlots

variable {H : Type} {slots : TagSlots H} {tag : Tag} {tags : List Tag}

theorem isPending_set_none (slots : TagSlots H) (tag u : Tag) :
  (slots.set tag none).isPending u = (slots.isPending u && decide (u ≠ tag))
  := by
  rw [isPending, isPending, get?_set]
  by_cases h : tag = u
  · simp [h]
  · simp [h, Ne.symm h]

/-- When the first busy tag is freed, the others stay busy. -/
theorem pending_set_none (h : slots.pending = tag :: tags) :
  (slots.set tag none).pending = tags
  := by
  have hsorted := slots.pairwise_pending
  rw [h] at hsorted
  have hne : ∀ u ∈ tags, u ≠ tag := by
    rintro u hu rfl
    exact Fin.lt_irrefl _ ((List.pairwise_cons.mp hsorted).1 u hu)
  have hfilter : (slots.set tag none).pending = slots.pending.filter fun u => u ≠ tag := by
    rw [pending, pending, List.filter_filter]
    apply List.filter_congr
    intro u _
    rw [isPending_set_none, Bool.and_comm]
  rw [hfilter, h, List.filter_cons_of_neg (by simp)]
  apply List.filter_eq_self.mpr
  intro u hu
  exact decide_eq_true (hne u hu)

end TagSlots

/-- The transfer in flight under a tag. The ticket in the slot tells which one of the accepted
transfers it is. -/
def inFlight? (slots : TagSlots Nat) (xs : List Exchange) (tag : Tag) : Option Transfer :=
  (slots.get? tag).bind fun ticket => (accepted xs)[ticket]?

/-- The transfers in flight, in the order of their tags. -/
def inFlight (slots : TagSlots Nat) (xs : List Exchange) : List (Tag × Transfer) :=
  slots.pending.filterMap fun tag => (inFlight? slots xs tag).map fun t => (tag, t)

section InFlight

variable {slots slots' : TagSlots Nat} {xs xs' : List Exchange} {tag : Tag} {tags : List Tag}
variable {t : Transfer} {ticket : Nat}

theorem inFlight?_eq_some :
  inFlight? slots xs tag = some t
    ↔ ∃ ticket, slots.get? tag = some ticket ∧ Wired.Ticketed xs ticket t
  := Option.bind_eq_some_iff

theorem mem_inFlight : (tag, t) ∈ inFlight slots xs ↔ inFlight? slots xs tag = some t := by
  rw [inFlight, List.mem_filterMap]
  constructor
  · rintro ⟨u, -, hu⟩
    obtain ⟨t', ht', heq⟩ := Option.map_eq_some_iff.mp hu
    cases heq
    exact ht'
  · intro ht
    obtain ⟨ticket, hslot, -⟩ := inFlight?_eq_some.mp ht
    have hbusy : slots.isPending tag = true := by
      rw [TagSlots.isPending, hslot]
      rfl
    exact ⟨tag, TagSlots.mem_pending.mpr hbusy, Option.map_eq_some_iff.mpr ⟨t, ht, rfl⟩⟩

/-- The tags come in increasing order. -/
theorem pairwise_inFlight (slots : TagSlots Nat) (xs : List Exchange) :
  (inFlight slots xs).Pairwise fun x y => x.1.index < y.1.index
  := by
  apply slots.pairwise_pending.filterMap
  intro u v huv x hx y hy
  obtain ⟨t, -, rfl⟩ := Option.map_eq_some_iff.mp hx
  obtain ⟨t', -, rfl⟩ := Option.map_eq_some_iff.mp hy
  exact huv

/-- What is in flight depends on the accepted transfers only. -/
theorem inFlight_congr (slots : TagSlots Nat) (h : accepted xs = accepted xs') :
  inFlight slots xs = inFlight slots xs'
  := by
  simp only [inFlight, inFlight?, h]

theorem inFlight_eq_nil (h : slots.pending = []) : inFlight slots xs = [] := by
  rw [inFlight, h]
  rfl

/-- What is in flight under the first busy tag comes before everything else. -/
theorem inFlight_eq_cons (h : slots.pending = tag :: tags) (ht : inFlight? slots xs tag = some t) :
  inFlight slots xs = (tag, t) :: inFlight (slots.set tag none) xs
  := by
  have hsorted := slots.pairwise_pending
  rw [h] at hsorted
  rw [inFlight, inFlight, h, TagSlots.pending_set_none h, List.filterMap_cons, ht]
  apply congrArg (List.cons (tag, t))
  apply List.filterMap_congr
  intro u hu
  have hne : tag ≠ u := by
    rintro rfl
    exact Fin.lt_irrefl _ ((List.pairwise_cons.mp hsorted).1 _ hu)
  rw [inFlight?, inFlight?, TagSlots.get?_set, if_neg hne]

end InFlight

/-! ### What holds all along -/

namespace Wired

variable {Channel α : Type} {w : Window} {st st' : Wired Channel α} {d₀ data data' : Data}
variable {tag : Tag} {t : Transfer} {ticket : Nat}

/-- Every ticket in a slot belongs to an accepted transfer. -/
theorem Books.exists_ticketed (h : st.Books w) (hslot : st.allSlots.get? tag = some ticket) :
  ∃ t, Ticketed st.transcript ticket t
  := by
  have howes := h.owes
  cases hclient : st.client with
  | running session =>
    rw [hclient] at howes
    obtain ⟨t, -, ht⟩ := Kept.taken howes tag ticket hslot
    exact ⟨t, ht⟩
  | finishing tags next =>
    rw [hclient] at howes
    obtain ⟨t, -, ht⟩ := howes.2.taken tag ticket hslot
    exact ⟨t, ht⟩

/-- The busy tags are those of the transfers in flight. -/
theorem Books.isPending_iff (h : st.Books w) (hwaiting : st.waiting = none) :
  st.slots.isPending tag = true ↔ tag ∈ (inFlight st.slots st.transcript).map Prod.fst
  := by
  have hslots := allSlots_of_none hwaiting
  rw [TagSlots.isPending, Option.isSome_iff_exists, List.mem_map]
  constructor
  · rintro ⟨ticket, hslot⟩
    obtain ⟨t, ht⟩ := h.exists_ticketed (hslots ▸ hslot)
    exact ⟨(tag, t), mem_inFlight.mpr (inFlight?_eq_some.mpr ⟨ticket, hslot, ht⟩), rfl⟩
  · rintro ⟨⟨_, t⟩, hmem, rfl⟩
    obtain ⟨ticket, hslot, -⟩ := inFlight?_eq_some.mp (mem_inFlight.mp hmem)
    exact ⟨ticket, hslot⟩

variable [OneShot Channel]

/-- What holds in every state that a client and its worker reach from the data `d₀` on, with the
outcome of every transfer: it went as it does on the data that those before it left. -/
structure Faithful (w : Window) (d₀ : Data) (st : Wired Channel α) (data : Data) : Prop where
  sound : Sound w d₀ st data
  books : st.Books w
  outcome_eq : ∀ (i : Nat) (t : Transfer) (outcome : Except TransferError Buffer),
    st.carried[i]? = some (t, outcome) →
      outcome = (t.perform w (carryOut w d₀ ((st.carried.map Prod.fst).take i))).1

namespace Faithful

theorem start (hfits : w.Fits data.size) (session : Session α) :
  Faithful w data (start session : Wired Channel α) data
  := ⟨sound_start hfits session, .start w session, nofun⟩

/-- One more transfer has been carried out. -/
theorem outcome_eq_concat (h : Faithful w d₀ st data) {t u : Transfer}
    {outcome outcome' : Except TransferError Buffer}
    (hperform : t.perform w data = (outcome, data')) {i : Nat}
    (hi : (st.carried ++ [(t, outcome)])[i]? = some (u, outcome')) :
  outcome' = (u.perform w
    (carryOut w d₀ (((st.carried ++ [(t, outcome)]).map Prod.fst).take i))).1
  := by
  have htake : ((st.carried ++ [(t, outcome)]).map Prod.fst).take i
      = (st.carried.map Prod.fst).take i := by
    obtain ⟨hlt, -⟩ := List.getElem?_eq_some_iff.mp hi
    rw [List.length_append, List.length_singleton] at hlt
    rw [List.map_append, List.take_append_of_le_length]
    rw [List.length_map]
    omega
  rw [htake]
  rw [List.getElem?_append] at hi
  split at hi
  · exact h.outcome_eq i u outcome' hi
  · rename_i hge
    rw [List.getElem?_singleton] at hi
    split at hi
    · cases hi
      rw [List.take_of_length_le (by rw [List.length_map]; omega), ← h.sound.data_eq, hperform]
    · cases hi

end Faithful

theorem TimedStep.faithful (hstep : TimedStep w (st, data) (st', data'))
    (h : Faithful w d₀ st data) :
  Faithful w d₀ st' data'
  := by
  refine ⟨hstep.sound h.sound, hstep.books h.sound h.books, ?_⟩
  cases hstep with
  | giveUp => exact h.outcome_eq
  | step hstep =>
    cases hstep with
    | copy _ _ hperform => exact fun i u outcome' hi => h.outcome_eq_concat hperform hi
    | _ => exact h.outcome_eq

theorem faithful_of_reachable {session : Session α} {st : Wired Channel α × Data}
    (hfits : w.Fits d₀.size) (h : Relation.ReflTransGen (TimedStep w) (.start session, d₀) st) :
  Faithful w d₀ st.1 st.2
  := by
  induction h with
  | refl => exact .start hfits session
  | tail _ hstep ih => exact hstep.faithful ih

/-- The client holds the receiving end of the channel of a transfer. If there is an outcome in the
channel, then it is the one of this transfer on the data that those accepted before it left. -/
def Promises (w : Window) (d₀ : Data) (st : Wired Channel α) (tag : Tag) (t : Transfer) : Prop :=
  ∃ (ticket : Nat) (channel : Channel), st.slots.get? tag = some ticket ∧
    Ticketed st.transcript ticket t ∧ st.channels[ticket]? = some channel ∧
    OneShot.hasReceiver channel = true ∧
    ∀ outcome, OneShot.content channel = some outcome →
      outcome = (t.perform w (carryOut w d₀ ((accepted st.transcript).take ticket))).1

/-- What is in flight is still to be collected. -/
theorem Faithful.promises (h : Faithful w d₀ st data) (hengine : st.hasEngine = true)
    (ht : inFlight? st.slots st.transcript tag = some t) :
  st.Promises w d₀ tag t
  := by
  obtain ⟨ticket, hslot, hticketed⟩ := inFlight?_eq_some.mp ht
  obtain ⟨channel, hchannel, hreceiver⟩ :=
    h.sound.held.hasReceiver tag ticket ⟨hengine, .inl hslot⟩
  refine ⟨ticket, channel, hslot, hticketed, hchannel, hreceiver, ?_⟩
  intro outcome hcontent
  have hagrees := h.sound.announced.agrees ticket channel hchannel
  cases hannounced : st.announced[ticket]? with
  | none =>
    rw [hannounced] at hagrees
    cases hcontent.symm.trans hagrees.1
  | some outcome' =>
    rw [hannounced] at hagrees
    cases hcontent.symm.trans (hagrees hreceiver)
    have hcarried := h.sound.inOrder.getElem?_carried hannounced hticketed
    obtain ⟨hlt, -⟩ := List.getElem?_eq_some_iff.mp hcarried
    rw [h.outcome_eq ticket t outcome hcarried, h.sound.inOrder.accepted_eq,
      List.take_append_of_le_length]
    rw [List.length_map]
    exact Nat.le_of_lt hlt

end Wired

/-! ### No execution is infinite -/

/-- Some sequential engine is where the threaded engine of a patient client will be once its worker
has served the queue. -/
theorem Threaded.exists_ahead (e : Threaded) (data : Data) (hpatient : e.pacing.Patient)
    (h : ∀ tag ticket, e.slots.get? tag = some ticket → ticket < e.served.size + e.queue.length) :
  ∃ s d, Ahead e data s d
  := by
  let s : Sequential := ⟨e.window, ⟨e.slots.slots.map fun ticket =>
    ticket.bind fun ticket => (e.close data).1.served[ticket]?⟩⟩
  have hslots : ∀ tag, s.slots.get? tag
      = (e.slots.get? tag).bind fun ticket => (e.close data).1.served[ticket]? := by
    intro tag
    simp [s, TagSlots.get?]
  refine ⟨s, _, hpatient, rfl, rfl, ?_, ?_⟩
  · intro tag hfree
    rw [hslots, hfree]
    rfl
  · intro tag ticket hslot
    have hlt := h tag ticket hslot
    rw [← Threaded.size_served_close e data] at hlt
    refine ⟨_, Array.getElem?_eq_getElem hlt, ?_⟩
    rw [hslots, hslot]
    exact Array.getElem?_eq_getElem hlt

namespace Wired

variable {Channel α : Type} {w : Window} {st st' : Wired Channel α} {d₀ data data' : Data}
variable {tag : Tag} {t : Transfer} {ticket : Nat}
variable [OneShot Channel]

/-- Whatever the steps are from now on, the worker exits. -/
theorem Faithful.inevitably_exits (h : Faithful w d₀ st data) :
  Inevitably (Step w) (fun s => Sound w d₀ s.1 s.2 ∧ s.1.worker = .exited) (st, data)
  := by
  have htickets : ∀ tag ticket, (st.engine w).slots.get? tag = some ticket →
      ticket < (st.engine w).served.size + (st.engine w).queue.length := by
    intro tag ticket hslot
    obtain ⟨t, ht⟩ := h.books.exists_ticketed hslot
    obtain ⟨hlt, -⟩ := List.getElem?_eq_some_iff.mp ht
    rw [h.sound.inOrder.accepted_eq] at hlt
    simpa [engine] using hlt
  obtain ⟨s, d, hahead⟩ := (st.engine w).exists_ahead data (Pacing.patient_of_none _) htickets
  have hsequenced : Worked.Sequenced st.client := by
    cases st.client with
    | running session => exact Worked.sequenced_running session
    | finishing tags next =>
      exact Worked.sequenced_finishing (fun _ => Worked.sequenced_running _) tags
  apply (h.sound.inevitably_exited (hsequenced hahead st.transcript)).mono
  rintro s ⟨hsound, hexited, -⟩
  exact ⟨hsound, hexited⟩

end Wired

/-! ### What is stored -/

/-- The records that a transfer stores, unless storage rejects it. -/
def Transfer.store? (w : Window) : Transfer → Option (Span × Array Record)
  | .get _ _ _ => none
  | .put records buffer =>
    match w.check records buffer.records.size with
    | .ok () => some (records, buffer.records)
    | .error _ => none

/-- Store one after the other. -/
def storeAll (w : Window) (data : Data) (stores : List (Span × Array Record)) : Data :=
  stores.foldl (fun data x => w.store data x.1 x.2) data

/-- Of the transfers that are carried out, those that store something leave their mark, each of them
once. -/
theorem carryOut_eq_storeAll (w : Window) (data : Data) (ts : List Transfer) :
  Wired.carryOut w data ts = storeAll w data (ts.filterMap (Transfer.store? w))
  := by
  induction ts generalizing data with
  | nil => rfl
  | cons t ts ih =>
    rw [Wired.carryOut, List.foldl_cons]
    refine (ih _).trans ?_
    cases t with
    | get array records buffer =>
      have hdata : ((Transfer.get array records buffer).perform w data).2 = data := by
        rw [Transfer.perform]
        split
        · rfl
        · rfl
      rw [hdata]
      rfl
    | put records buffer =>
      rw [List.filterMap_cons, Transfer.store?, Transfer.perform]
      cases w.check records buffer.records.size with
      | ok => rfl
      | error cause => rfl

/-- A worker that has exited has carried out each accepted transfer once, in the order of their
submission, so the data are what the stores among them make of the data at the start. -/
structure Wired.Stored {Channel α : Type} (w : Window) (d₀ : Data) (st : Wired Channel α)
    (data : Data) : Prop where
  carried_eq : st.carried.map Prod.fst = accepted st.transcript
  data_eq : data = storeAll w d₀ ((accepted st.transcript).filterMap (Transfer.store? w))

theorem Wired.Sound.stored {Channel α : Type} [OneShot Channel] {w : Window} {d₀ data : Data}
    {st : Wired Channel α} (h : Sound w d₀ st data) (hexited : st.worker = .exited) :
  st.Stored w d₀ data
  where
  carried_eq := h.carried_eq hexited
  data_eq := by
    rw [← carryOut_eq_storeAll, ← h.carried_eq hexited]
    exact h.data_eq

end ReplicaSum
