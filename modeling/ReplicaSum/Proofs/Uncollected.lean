import ReplicaSum.Proofs.Course
import ReplicaSum.Proofs.Footprint
import Mathlib.Data.List.Induction

/-!
# Uncollected transfers

Which accepted transfers nobody has collected yet can be told from the calls of a session and the
replies to them. `uncollected` goes through these and keeps a list. An engine gives every reply that
is due if it refuses a transfer whose tag is on the list, hands out the buffer on the list when
there is a wait for its tag, unless the transfer has failed or the wait times out, and hands out
nothing when the tag isn't there. In a session that gets no other replies, every buffer comes back
from the latest transfer under its tag, and at most once.
-/

namespace ReplicaSum

namespace Transfer

variable {w : Window} {data : Data} {t : Transfer} {b : Buffer}

/-- The buffer `b` is the one that was handed over with a transfer. Storing leaves it as it was, and
fetching replaces only its front. -/
def HandsBack : Transfer → Buffer → Prop
  | .get _ records buffer, b =>
    b.name = buffer.name ∧ b.records.size = buffer.records.size ∧
      ∀ j, records.length ≤ j → b.records[j]? = buffer.records[j]?
  | .put _ buffer, b => b = buffer

theorem handsBack_filled (w : Window) (data : Data) (t : Transfer) :
  t.HandsBack (t.filled w data)
  := by
  cases t with
  | get array records buffer =>
    refine ⟨rfl, size_overwrite _ _ _, ?_⟩
    intro j hj
    have hsize : (w.block data array records).size ≤ records.length := by
      rw [Window.block, Array.size_extract]
      simp only [Window.address, Span.length]
      omega
    rw [filled, Window.load, getElem?_overwrite, ← Window.block, if_neg (by omega)]
  | put records buffer => rfl

/-- A transfer that goes well passes its check. -/
theorem check_of_perform_ok (h : (t.perform w data).1 = .ok b) :
  t.check w = .ok ()
  := by
  cases hcheck : t.check w with
  | error cause =>
    rw [perform_of_check_error hcheck] at h
    cases h
  | ok => rfl

/-- A transfer that goes well hands back its buffer. -/
theorem handsBack_of_perform (h : (t.perform w data).1 = .ok b) :
  t.HandsBack b
  := by
  rw [perform_of_check_ok (check_of_perform_ok h)] at h
  cases h
  apply handsBack_filled

/-- A transfer fails for the reason for which it fails its check. -/
theorem check_of_perform_error {cause : TransferError} (h : (t.perform w data).1 = .error cause) :
  t.check w = .error cause
  := by
  cases hcheck : t.check w with
  | error cause' =>
    rw [perform_of_check_error hcheck] at h
    cases h
    rfl
  | ok =>
    rw [perform_of_check_ok hcheck] at h
    cases h

/-- A transfer fails just if it fails its check. -/
theorem isOk_perform (w : Window) (data : Data) (t : Transfer) :
  (t.perform w data).1.isOk = (t.check w).isOk
  := by
  cases hcheck : t.check w with
  | error cause => rw [perform_of_check_error hcheck]; rfl
  | ok => rw [perform_of_check_ok hcheck]; rfl

end Transfer

namespace Exchange

/-- A transfer is accepted under a tag. -/
def Begins (tag : Tag) (t : Transfer) (x : Exchange) : Prop := x = ⟨.submit tag t, .ok ()⟩

/-- Whatever is in flight under a tag is collected, by a wait or by a successful finish. -/
def Collects (tag : Tag) : Exchange → Prop
  | ⟨.wait u, _⟩ => u = tag
  | ⟨.finish, .ok ()⟩ => True
  | _ => False

/-- The transfers that are still to be collected after a finish that failed. In the order of the
tags, it has collected everything up to the transfer on which the wait timed out, or else everything
up to the first transfer that failed. -/
def leftBy (w : Window) (held : List (Tag × Transfer)) : TransferError → List (Tag × Transfer)
  | .timedOut tag => held.filter fun x => tag.index < x.1.index
  | _ =>
    held.filter fun x => held.any fun y => !(y.2.check w).isOk && decide (y.1.index < x.1.index)

/-- The transfers that are still to be collected after a call, if those in `held` were before. -/
def leaves (w : Window) (held : List (Tag × Transfer)) : Exchange → List (Tag × Transfer)
  | ⟨.submit tag t, .ok ()⟩ => held ++ [(tag, t)]
  | ⟨.submit _ _, .error _⟩ => held
  | ⟨.wait tag, _⟩ => held.filter fun x => x.1 ≠ tag
  | ⟨.finish, .ok ()⟩ => []
  | ⟨.finish, .error cause⟩ => leftBy w held cause

/-- The reply to a call is due, if the transfers in `held` are still to be collected. -/
def Due (w : Window) (held : List (Tag × Transfer)) : Exchange → Prop
  | ⟨.submit tag _, reply⟩ => (∃ t, (tag, t) ∈ held) → reply = .error (.tagBusy tag)
  | ⟨.wait tag, reply⟩ =>
    ((∀ t, (tag, t) ∉ held) → reply = .ok none) ∧
      ∀ t, (tag, t) ∈ held →
        reply = .error (.timedOut tag) ∨ ∃ d, reply = (t.perform w d).1.map some
  | ⟨.finish, _⟩ => True

/-- A finish that fails without having timed out has collected everything up to the first transfer
that failed. -/
theorem leftBy_of_tag?_eq_none {cause : TransferError} (h : cause.tag? = none) (w : Window)
    (held : List (Tag × Transfer)) :
  leftBy w held cause
    = held.filter fun x =>
        held.any fun y => !(y.2.check w).isOk && decide (y.1.index < x.1.index)
  := by
  cases cause with
  | timedOut => cases h
  | _ => rfl

theorem leftBy_subset (w : Window) (held : List (Tag × Transfer)) (cause : TransferError) :
  leftBy w held cause ⊆ held
  := by
  cases cause with
  | _ => exact List.filter_sublist.subset

end Exchange

/-- The accepted transfers that have not been collected, with their tags, in the order in which they
were accepted. -/
def uncollected (w : Window) (xs : List Exchange) : List (Tag × Transfer) :=
  xs.foldl (Exchange.leaves w) []

theorem uncollected_concat (w : Window) (xs : List Exchange) (x : Exchange) :
  uncollected w (xs ++ [x]) = x.leaves w (uncollected w xs)
  := by
  rw [uncollected, uncollected, List.foldl_append]
  rfl

/-- Every reply is due after what has been said before it. -/
def AllDue (w : Window) (xs : List Exchange) : Prop :=
  ∀ (i : Nat) (x : Exchange), xs[i]? = some x → x.Due w (uncollected w (xs.take i))

/-- The transfer that is accepted at position `i` is the latest one under its tag, and has not been
collected. -/
structure Standing (xs : List Exchange) (i : Nat) (tag : Tag) (t : Transfer) : Prop where
  begun : xs[i]? = some ⟨.submit tag t, .ok ()⟩
  undisturbed : ∀ (k : Nat) (x : Exchange), i < k → xs[k]? = some x →
    ¬ x.Collects tag ∧ ∀ u, ¬ x.Begins tag u

variable {w : Window} {xs : List Exchange} {x : Exchange} {tag : Tag} {t : Transfer} {i j k : Nat}

theorem getElem?_concat_eq_some {y : Exchange} :
  (xs ++ [x])[k]? = some y ↔ xs[k]? = some y ∨ k = xs.length ∧ x = y
  := by
  rcases Nat.lt_trichotomy k xs.length with hk | rfl | hk
  · rw [List.getElem?_append_left hk]
    simp [Nat.ne_of_lt hk]
  · rw [List.getElem?_concat_length, List.getElem?_eq_none (Nat.le_refl _)]
    simp
  · rw [List.getElem?_eq_none (by simp; omega), List.getElem?_eq_none (Nat.le_of_lt hk)]
    simp
    omega

namespace AllDue

theorem nil (w : Window) :
  AllDue w []
  := by
  intro i x hx
  cases hx

theorem concat (h : AllDue w xs) (hx : x.Due w (uncollected w xs)) :
  AllDue w (xs ++ [x])
  := by
  intro i y hy
  rcases getElem?_concat_eq_some.mp hy with hy | ⟨rfl, rfl⟩
  · obtain ⟨hi, -⟩ := List.getElem?_eq_some_iff.mp hy
    rw [List.take_append_of_le_length (Nat.le_of_lt hi)]
    apply h i y hy
  · rw [List.take_left]
    apply hx

theorem take (h : AllDue w xs) (n : Nat) :
  AllDue w (xs.take n)
  := by
  intro i x hx
  rw [List.getElem?_take] at hx
  split at hx
  · rw [List.take_take, Nat.min_eq_left (by omega)]
    apply h i x hx
  · cases hx

end AllDue

namespace Standing

/-- A transfer stands while nothing collects it and none is accepted under its tag. -/
theorem concat (h : Standing xs i tag t) (hcollects : ¬ x.Collects tag)
    (hbegins : ∀ u, ¬ x.Begins tag u) :
  Standing (xs ++ [x]) i tag t
  where
  begun := getElem?_concat_eq_some.mpr (.inl h.begun)
  undisturbed k y hk hy := by
    rcases getElem?_concat_eq_some.mp hy with hy | ⟨-, rfl⟩
    · apply h.undisturbed k y hk hy
    · exact ⟨hcollects, hbegins⟩

/-- What stands now and was accepted before the last call has stood before it. -/
theorem init (h : Standing (xs ++ [x]) i tag t) (hi : i < xs.length) :
  Standing xs i tag t ∧ ¬ x.Collects tag
  := by
  have hlast : (xs ++ [x])[xs.length]? = some x := List.getElem?_concat_length
  refine ⟨⟨?_, ?_⟩, (h.undisturbed _ _ hi hlast).1⟩
  · rcases getElem?_concat_eq_some.mp h.begun with hbegun | ⟨rfl, -⟩
    · exact hbegun
    · exact absurd hi (Nat.lt_irrefl _)
  · intro k y hk hy
    apply h.undisturbed k y hk
    exact getElem?_concat_eq_some.mpr (.inl hy)

/-- The transfer that has just been accepted stands. -/
theorem last (xs : List Exchange) (tag : Tag) (t : Transfer) :
  Standing (xs ++ [⟨.submit tag t, .ok ()⟩]) xs.length tag t
  where
  begun := getElem?_concat_eq_some.mpr (.inr ⟨rfl, rfl⟩)
  undisturbed k y hk hy := by
    obtain ⟨hlt, -⟩ := List.getElem?_eq_some_iff.mp hy
    rw [List.length_append, List.length_singleton] at hlt
    omega

end Standing

/-- What is on the list of uncollected transfers stands. -/
theorem exists_standing (h : AllDue w xs) (hmem : (tag, t) ∈ uncollected w xs) :
  ∃ i, Standing xs i tag t
  := by
  induction xs using List.reverseRecOn generalizing tag t with
  | nil => cases hmem
  | append_singleton xs x ih =>
    have hbefore : AllDue w xs := by
      have htake := h.take xs.length
      rw [List.take_left] at htake
      apply htake
    have hdue : x.Due w (uncollected w xs) := by
      have hlast := h xs.length x List.getElem?_concat_length
      rw [List.take_left] at hlast
      apply hlast
    rw [uncollected_concat] at hmem
    match x, hdue, hmem with
    | ⟨.submit u t', .ok ()⟩, hdue, hmem =>
      rcases List.mem_append.mp hmem with hold | hnew
      · obtain ⟨i, hi⟩ := ih hbefore hold
        use i
        apply hi.concat
        · exact id
        · rintro t'' ⟨⟩
          cases hdue ⟨t, hold⟩
      · cases List.mem_singleton.mp hnew
        use xs.length
        apply Standing.last
    | ⟨.submit u t', .error cause⟩, _, hmem =>
      obtain ⟨i, hi⟩ := ih hbefore hmem
      use i
      apply hi.concat
      · exact id
      · rintro t'' ⟨⟩
    | ⟨.wait u, reply⟩, _, hmem =>
      obtain ⟨hold, hne⟩ := List.mem_filter.mp hmem
      obtain ⟨i, hi⟩ := ih hbefore hold
      use i
      apply hi.concat
      · rintro rfl
        simp at hne
      · rintro t'' ⟨⟩
    | ⟨.finish, .ok ()⟩, _, hmem => cases hmem
    | ⟨.finish, .error cause⟩, _, hmem =>
      obtain ⟨i, hi⟩ := ih hbefore (Exchange.leftBy_subset _ _ _ hmem)
      use i
      apply hi.concat
      · exact id
      · rintro t'' ⟨⟩

/-- What stands is on the list of uncollected transfers, unless a finish that failed has collected
it. -/
theorem Standing.mem_uncollected (h : Standing xs i tag t)
    (hfinish : ∀ cause, (⟨.finish, .error cause⟩ : Exchange) ∉ xs) :
  (tag, t) ∈ uncollected w xs
  := by
  induction xs using List.reverseRecOn with
  | nil => cases h.begun
  | append_singleton xs x ih =>
    rw [uncollected_concat]
    rcases getElem?_concat_eq_some.mp h.begun with hbegun | ⟨-, rfl⟩
    · obtain ⟨hi, -⟩ := List.getElem?_eq_some_iff.mp hbegun
      obtain ⟨hstanding, hcollects⟩ := h.init hi
      have hmem : (tag, t) ∈ uncollected w xs := by
        apply ih hstanding
        intro cause hcause
        exact hfinish cause (List.mem_append_left _ hcause)
      match x, hcollects, hfinish with
      | ⟨.submit u t', .ok ()⟩, _, _ => exact List.mem_append_left _ hmem
      | ⟨.submit u t', .error cause⟩, _, _ => exact hmem
      | ⟨.wait u, reply⟩, hcollects, _ =>
        exact List.mem_filter.mpr ⟨hmem, decide_eq_true (Ne.symm hcollects)⟩
      | ⟨.finish, .ok ()⟩, hcollects, _ => exact absurd trivial hcollects
      | ⟨.finish, .error cause⟩, _, hfinish => exact absurd (by simp) (hfinish cause)
    · exact List.mem_append_right _ (.head _)

/-- The buffer that a wait at position `j` hands out was handed over with the transfer that was
accepted at position `i`, the latest one under its tag. Nothing has collected the transfer in
between. -/
structure Returned (xs : List Exchange) (i j : Nat) : Prop where
  lt : i < j
  handsBack : ∃ tag t b, xs[i]? = some ⟨.submit tag t, .ok ()⟩ ∧
    xs[j]? = some ⟨.wait tag, .ok (some b)⟩ ∧ t.HandsBack b ∧
    ∀ (k : Nat) (x : Exchange), i < k → k < j → xs[k]? = some x →
      ¬ x.Collects tag ∧ ∀ u, ¬ x.Begins tag u

/-- What the calls of a session and the replies to them say about the buffers. -/
structure Accounted (w : Window) (xs : List Exchange) : Prop where
  /-- A buffer that is handed out is the one of the latest transfer under the tag. -/
  returned : ∀ (j : Nat) tag b, xs[j]? = some ⟨.wait tag, .ok (some b)⟩ → ∃ i, Returned xs i j
  /-- No buffer is handed out twice. -/
  once : ∀ i j j', Returned xs i j → Returned xs i j' → j = j'
  /-- Once the latest transfer under a tag has been collected, a wait hands out nothing. -/
  spent : ∀ (i k j : Nat) tag t (x : Exchange) reply, i < k → k < j →
    xs[i]? = some ⟨.submit tag t, .ok ()⟩ →
    (∀ (l : Nat) y, i < l → l < j → xs[l]? = some y → ∀ u, ¬ y.Begins tag u) →
    xs[k]? = some x → x.Collects tag → xs[j]? = some ⟨.wait tag, reply⟩ → reply = .ok none
  /-- While no finish has failed, the uncollected transfers are those that stand. -/
  standing : (∀ cause, (⟨.finish, .error cause⟩ : Exchange) ∉ xs) →
    ∀ tag t, (tag, t) ∈ uncollected w xs ↔ ∃ i, Standing xs i tag t

namespace AllDue

/-- A wait hands out what stands under its tag. -/
theorem returned (h : AllDue w xs) {b : Buffer} (hj : xs[j]? = some ⟨.wait tag, .ok (some b)⟩) :
  ∃ i, Returned xs i j
  := by
  obtain ⟨hnone, hsome⟩ := h j _ hj
  obtain ⟨t, hmem⟩ : ∃ t, (tag, t) ∈ uncollected w (xs.take j) := by
    by_contra hfree
    cases hnone (not_exists.mp hfree)
  obtain ⟨d, hperform⟩ : ∃ d, .ok (some b) = (t.perform w d).1.map some := by
    rcases hsome t hmem with htimedOut | hperformed
    · cases htimedOut
    · exact hperformed
  have hback : t.HandsBack b := by
    cases houtcome : (t.perform w d).1 with
    | error cause =>
      rw [houtcome] at hperform
      cases hperform
    | ok b' =>
      rw [houtcome] at hperform
      cases hperform
      apply Transfer.handsBack_of_perform houtcome
  obtain ⟨i, hi⟩ := exists_standing (h.take j) hmem
  have hbegun := hi.begun
  rw [List.getElem?_take] at hbegun
  split at hbegun
  · rename_i hlt
    use i, hlt, tag, t, b, hbegun, hj, hback
    intro k x hik hkj hx
    apply hi.undisturbed k x hik
    rw [List.getElem?_take, if_pos hkj, hx]
  · cases hbegun

/-- A wait hands out nothing once what stood under its tag has been collected. -/
theorem spent (h : AllDue w xs) {reply : Except TransferError (Option Buffer)} (hik : i < k)
    (hkj : k < j) (hi : xs[i]? = some ⟨.submit tag t, .ok ()⟩)
    (hlatest : ∀ (l : Nat) y, i < l → l < j → xs[l]? = some y → ∀ u, ¬ y.Begins tag u)
    (hk : xs[k]? = some x) (hcollects : x.Collects tag)
    (hj : xs[j]? = some ⟨.wait tag, reply⟩) :
  reply = .ok none
  := by
  obtain ⟨hnone, -⟩ := h j _ hj
  apply hnone
  intro t' hmem
  obtain ⟨i', hi'⟩ := exists_standing (h.take j) hmem
  have hbegun := hi'.begun
  rw [List.getElem?_take] at hbegun
  split at hbegun
  · rename_i hlt
    -- What stands would have to be the latest transfer, which doesn't.
    have htake : ∀ (l : Nat) y, l < j → xs[l]? = some y → (xs.take j)[l]? = some y := by
      intro l y hl hy
      rw [List.getElem?_take, if_pos hl, hy]
    rcases Nat.lt_trichotomy i i' with hii | rfl | hii
    · exact hlatest i' _ hii hlt hbegun t' rfl
    · exact (hi'.undisturbed k x hik (htake k x hkj hk)).1 hcollects
    · exact (hi'.undisturbed i _ hii (htake i _ (by omega) hi)).2 t rfl
  · cases hbegun

end AllDue

/-- A wait that hands out the buffer of a transfer collects the transfer. -/
theorem Returned.once (h : Returned xs i j) (h' : Returned xs i k) :
  j = k
  := by
  obtain ⟨hij, tag, t, b, hi, hj, -, hbetween⟩ := h
  obtain ⟨hik, tag', t', b', hi', hk, -, hbetween'⟩ := h'
  obtain rfl : tag = tag' := by
    rw [hi] at hi'
    cases hi'
    rfl
  rcases Nat.lt_trichotomy j k with hjk | rfl | hjk
  · exact absurd rfl (hbetween' j _ hij hjk hj).1
  · rfl
  · exact absurd rfl (hbetween k _ hik hjk hk).1

/-- A session that gets only replies that are due has its buffers accounted for. -/
theorem AllDue.accounted (h : AllDue w xs) :
  Accounted w xs
  where
  returned _ _ _ hj := h.returned hj
  once _ _ _ := Returned.once
  spent _ _ _ _ _ _ _ hik hkj hi hlatest hk hcollects hj :=
    h.spent hik hkj hi hlatest hk hcollects hj
  standing hfinish _ _ := ⟨exists_standing h, fun ⟨_, hi⟩ => hi.mem_uncollected hfinish⟩

end ReplicaSum
