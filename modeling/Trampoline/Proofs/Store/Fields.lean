import Trampoline.Script

/-!
What the operations of a store do to its requests, slots and cells, one field at a time. A poll can end
in six ways, of which only two change the store.
-/
namespace Trampoline

variable {I V X : Type}

/-- How far a request has come. -/
inductive Standing where
  /-- It was not issued yet. -/
  | waiting
  | issued (ticket : Nat)
  | dropped
  deriving DecidableEq

namespace Request

variable {q : Request I} {t : Nat}

def standing (q : Request I) : Standing :=
  if q.dropped then .dropped else q.ticket.elim .waiting .issued

theorem standing_eq_dropped_iff : q.standing = .dropped ↔ q.dropped = true := by
  unfold standing
  cases q.dropped <;> cases q.ticket <;> simp

theorem standing_eq_waiting_iff : q.standing = .waiting ↔ q.dropped = false ∧ q.ticket = none := by
  unfold standing
  cases q.dropped <;> cases q.ticket <;> simp

theorem standing_eq_issued_iff :
    q.standing = .issued t ↔ q.dropped = false ∧ q.ticket = some t := by
  unfold standing
  cases q.dropped <;> cases q.ticket <;> simp

theorem ticket_of_issued (h : q.standing = .issued t) : q.ticket = some t :=
  (standing_eq_issued_iff.mp h).2

theorem standing_ne_dropped_iff : q.standing ≠ .dropped ↔ q.dropped = false := by
  rw [Ne, standing_eq_dropped_iff, Bool.not_eq_true]

@[simp] theorem issued_fresh (issued : Issued I) (k : Nat) : (fresh issued k).issued = issued :=
  rfl

@[simp] theorem slot_fresh (issued : Issued I) (k : Nat) : (fresh issued k).slot = k :=
  rfl

@[simp] theorem issued_ticketed (q : Request I) (t : Nat) : (q.ticketed t).issued = q.issued :=
  rfl

@[simp] theorem slot_ticketed (q : Request I) (t : Nat) : (q.ticketed t).slot = q.slot :=
  rfl

@[simp] theorem issued_drop (q : Request I) : q.drop.issued = q.issued :=
  rfl

@[simp] theorem slot_drop (q : Request I) : q.drop.slot = q.slot :=
  rfl

@[simp] theorem standing_fresh (issued : Issued I) (k : Nat) : (fresh issued k).standing = .waiting :=
  rfl

@[simp] theorem standing_drop (q : Request I) : q.drop.standing = .dropped :=
  rfl

theorem standing_ticketed (h : q.dropped = false) (t : Nat) : (q.ticketed t).standing = .issued t :=
  standing_eq_issued_iff.mpr ⟨h, rfl⟩

theorem standing_ticketed_of_waiting (h : q.standing = .waiting) (t : Nat) :
    (q.ticketed t).standing = .issued t :=
  standing_ticketed (standing_eq_waiting_iff.mp h).1 t

theorem drop_eq_self (h : q.standing = .dropped) : q.drop = q := by
  rw [drop, ← standing_eq_dropped_iff.mp h]

/-- A request whose instruction goes back to it is the same as before. -/
theorem put_back {i : Issued I} (h : q.instruction = some i) :
    { q with instruction := some i } = q := by
  rw [← h]

end Request

namespace Store

/-- Whether the instruction of a request is in the slot. -/
def holding (store : Store I V X) (q : Request I) : Bool :=
  !q.dropped && q.ticket.any (store.slotAt q.slot).holds

theorem holding_of_issued (store : Store I V X) {q : Request I} {t : Nat}
    (h : q.standing = .issued t) : store.holding q = (store.slotAt q.slot).holds t := by
  obtain ⟨hd, ht⟩ := Request.standing_eq_issued_iff.mp h
  rw [holding, hd, ht]
  rfl

theorem holding_of_waiting (store : Store I V X) {q : Request I} (h : q.standing = .waiting) :
    store.holding q = false := by
  rw [holding, (Request.standing_eq_waiting_iff.mp h).2]
  exact Bool.and_false _

theorem holding_of_dropped (store : Store I V X) {q : Request I} (h : q.standing = .dropped) :
    store.holding q = false := by
  rw [holding, Request.standing_eq_dropped_iff.mp h]
  rfl

theorem holding_eq_true_iff {store : Store I V X} {q : Request I} :
    store.holding q = true ↔
      ∃ t issued, q.standing = .issued t ∧ (store.slotAt q.slot).pending = some (t, issued) := by
  cases hs : q.standing with
  | waiting => simp [holding_of_waiting store hs]
  | dropped => simp [holding_of_dropped store hs]
  | issued t =>
    rw [holding_of_issued store hs, Slot.holds]
    cases (store.slotAt q.slot).pending with
    | none => simp
    | some entry =>
      obtain ⟨ticket, pending⟩ := entry
      constructor
      · intro h
        exact ⟨t, pending, rfl, by rw [beq_iff_eq.mp h]⟩
      · rintro ⟨_, _, ⟨⟩, ⟨⟩⟩
        exact beq_self_eq_true t

theorem standing_of_holding {store : Store I V X} {q : Request I} (h : store.holding q = true) :
    ∃ t, q.standing = .issued t := by
  obtain ⟨t, _, hs, _⟩ := holding_eq_true_iff.mp h
  exact ⟨t, hs⟩

theorem holding_of_ticket (store : Store I V X) {q : Request I} (h : q.dropped = false) :
    store.holding q = q.ticket.any (store.slotAt q.slot).holds := by
  rw [holding, h]
  rfl

/-! ### Cells -/

theorem cellAt_putCell (store : Store I V X) (c d : Nat) (cell : Cell V) :
    (store.putCell c cell).cellAt d =
      if c = d ∧ c < store.cells.size then cell else store.cellAt d := by
  simp only [cellAt, putCell, Array.getD_eq_getD_getElem?, Array.getElem?_setIfInBounds]
  by_cases h : c = d
  · subst d
    by_cases hc : c < store.cells.size <;> simp [hc]
  · simp [h]

theorem cellAt_putCell_self {store : Store I V X} {c : Nat} (cell : Cell V)
    (h : c < store.cells.size) : (store.putCell c cell).cellAt c = cell := by
  rw [cellAt_putCell, if_pos ⟨rfl, h⟩]

theorem cellAt_putCell_of_ne {store : Store I V X} {c d : Nat} (cell : Cell V) (h : c ≠ d) :
    (store.putCell c cell).cellAt d = store.cellAt d := by
  rw [cellAt_putCell, if_neg fun hc => h hc.1]

theorem putCell_putCell (store : Store I V X) (c : Nat) (cell cell' : Cell V) :
    (store.putCell c cell).putCell c cell' = store.putCell c cell' := by
  simp only [putCell, Array.setIfInBounds_setIfInBounds]

theorem putCell_cellAt (store : Store I V X) (c : Nat) :
    store.putCell c (store.cellAt c) = store := by
  have h : store.cells.setIfInBounds c (store.cellAt c) = store.cells := by
    apply Array.ext_getElem?
    intro d
    rw [Array.getElem?_setIfInBounds, cellAt, Array.getD_eq_getD_getElem?]
    split
    · subst d
      split <;> simp_all
    · rfl
  rw [putCell, h]

theorem takeCell_eq (store : Store I V X) (c : Nat) :
    store.takeCell c =
      ((store.cellAt c).fetch.1, store.putCell c (store.cellAt c).fetch.2) := by
  unfold takeCell Cell.fetch
  cases hc : (store.cellAt c).take with
  | ok taken => rfl
  | error e => simp only [putCell_cellAt]

theorem cellAt_push {store : Store I V X} {c : Nat} (cell : Cell V) (h : c < store.cells.size) :
    (store.cells.push cell).getD c .empty = store.cellAt c := by
  simp only [cellAt, Array.getD_eq_getD_getElem?, Array.getElem?_push, Nat.ne_of_lt h, if_false]

/-- The cell of a new instruction is empty. -/
theorem cellAt_issue_self (store : Store I V X) (i : I) :
    (store.issue i).2.cellAt (store.issue i).1.cell = .empty := by
  simp [issue, newCell, cellAt, Array.getD_eq_getD_getElem?]

theorem instruction_issue (store : Store I V X) (i : I) : (store.issue i).1.instruction = i :=
  rfl

theorem cell_issue_lt (store : Store I V X) (i : I) :
    (store.issue i).1.cell < (store.issue i).2.cells.size := by
  simp [issue, newCell]

/-! ### Slots -/

theorem slotAt_newSlot (store : Store I V X) (k : Nat) :
    store.newSlot.2.slotAt k = store.slotAt k := by
  simp only [slotAt, newSlot, Array.getD_eq_getD_getElem?, Array.getElem?_push]
  split
  · subst k
    simp
  · rfl

theorem slotAt_vacate (store : Store I V X) (k j : Nat) :
    (store.vacate k).slotAt j =
      if k = j then { store.slotAt j with pending := none } else store.slotAt j := by
  simp only [slotAt, vacate, Array.getD_eq_getD_getElem?, Array.getElem?_modify]
  split
  · cases store.slots[j]? <;> rfl
  · rfl

theorem slotAt_occupy {store : Store I V X} {r : Nat} {q : Request I}
    (h : q.slot < store.slots.size) (i : Issued I) (k : Nat) :
    (store.occupy r q i).slotAt k =
      if q.slot = k then ⟨(store.slotAt k).issued + 1, some ((store.slotAt k).issued + 1, i)⟩
      else store.slotAt k := by
  simp only [slotAt, occupy, Array.getD_eq_getD_getElem?, Array.getElem?_setIfInBounds]
  split
  · subst k
    simp [h]
  · rfl

theorem slotAt_occupy_of_ne {store : Store I V X} {r k : Nat} {q : Request I} (i : Issued I)
    (h : q.slot ≠ k) : (store.occupy r q i).slotAt k = store.slotAt k := by
  simp only [slotAt, occupy, Array.getD_eq_getD_getElem?, Array.getElem?_setIfInBounds, h, if_false]

theorem cells_collect (store : Store I V X) (k : Nat) : (store.collect k).2.cells = store.cells := by
  unfold collect
  split <;> rfl

theorem size_slots_collect (store : Store I V X) (k : Nat) :
    (store.collect k).2.slots.size = store.slots.size := by
  unfold collect
  split
  · rfl
  · simp [vacate]

theorem pending_of_collect {store : Store I V X} {k : Nat} {issued : Issued I}
    (h : (store.collect k).1 = some issued) : ∃ n, (store.slotAt k).pending = some (n, issued) := by
  unfold collect at h
  split at h
  · cases h
  · rename_i n _ hp
    cases h
    exact ⟨n, hp⟩

/-! ### Requests -/

theorem requests_request (store : Store I V X) (k : Nat) (i : I) (s : Nat) :
    (store.request k i).2.requests[s]? =
      if s = store.requests.size then some (.fresh ⟨i, store.cells.size⟩ k)
      else store.requests[s]? :=
  Array.getElem?_push

theorem requests_putRequest {store : Store I V X} {r : Nat} {q : Request I}
    (h : store.requests[r]? = some q) (p : Request I) (s : Nat) :
    (store.putRequest r p).requests[s]? = if r = s then some p else store.requests[s]? := by
  have hr : r < store.requests.size := (Array.getElem?_eq_some_iff.mp h).1
  simp only [putRequest, Array.getElem?_setIfInBounds, hr, if_true]

theorem putRequest_self {store : Store I V X} {r : Nat} {q : Request I}
    (h : store.requests[r]? = some q) : store.putRequest r q = store := by
  have hs : store.requests.setIfInBounds r q = store.requests := by
    apply Array.ext_getElem?
    intro s
    refine (requests_putRequest h q s).trans ?_
    split
    · subst s
      exact h.symm
    · rfl
  rw [putRequest, hs]

theorem requests_occupy {store : Store I V X} {r : Nat} {q : Request I}
    (h : store.requests[r]? = some q) (i : Issued I) (s : Nat) :
    (store.occupy r q i).requests[s]? =
      if r = s then some (q.ticketed ((store.slotAt q.slot).issued + 1)) else store.requests[s]? :=
  requests_putRequest h _ s

theorem drop_of_none {store : Store I V X} {r : Nat} (h : store.requests[r]? = none) :
    store.drop r = store := by
  simp only [drop, h]

theorem drop_of_dropped {store : Store I V X} {r : Nat} {q : Request I}
    (h : store.requests[r]? = some q) (hd : q.dropped = true) : store.drop r = store := by
  simp only [drop, h, hd, if_true]

/-- What a drop does, in terms of what was there before. -/
theorem drop_eq {store : Store I V X} {r : Nat} {q : Request I}
    (h : store.requests[r]? = some q) :
    store.drop r =
      if store.holding q then (store.putRequest r q.drop).vacate q.slot
      else store.putRequest r q.drop := by
  cases hd : q.dropped with
  | true =>
    have hs := Request.standing_eq_dropped_iff.mpr hd
    rw [drop_of_dropped h hd, holding_of_dropped store hs, Request.drop_eq_self hs,
      putRequest_self h]
    rfl
  | false =>
    simp only [drop, h, hd]
    rw [holding_of_ticket store hd]
    rfl

theorem requests_drop (store : Store I V X) (r s : Nat) :
    (store.drop r).requests[s]? =
      if r = s then store.requests[s]?.map Request.drop else store.requests[s]? := by
  cases h : store.requests[r]? with
  | none =>
    rw [drop_of_none h]
    split
    · subst s
      rw [h]; rfl
    · rfl
  | some q =>
    have hs : (store.putRequest r q.drop).requests[s]? =
        if r = s then store.requests[s]?.map Request.drop else store.requests[s]? := by
      rw [requests_putRequest h]
      split
      · subst s
        rw [h]; rfl
      · rfl
    rw [drop_eq h]
    split <;> exact hs

theorem slotAt_drop {store : Store I V X} {r : Nat} {q : Request I}
    (h : store.requests[r]? = some q) (k : Nat) :
    (store.drop r).slotAt k =
      if store.holding q = true ∧ q.slot = k then { store.slotAt k with pending := none }
      else store.slotAt k := by
  rw [drop_eq h]
  by_cases hh : store.holding q = true
  · rw [if_pos hh, slotAt_vacate]
    simp only [hh, true_and]
    rfl
  · rw [if_neg hh, if_neg fun hc => hh hc.1]
    rfl

theorem cells_drop (store : Store I V X) (r : Nat) : (store.drop r).cells = store.cells := by
  cases h : store.requests[r]? with
  | none => rw [drop_of_none h]
  | some q =>
    rw [drop_eq h]
    split <;> rfl

theorem size_slots_drop (store : Store I V X) (r : Nat) :
    (store.drop r).slots.size = store.slots.size := by
  cases h : store.requests[r]? with
  | none => rw [drop_of_none h]
  | some q =>
    rw [drop_eq h]
    split
    · simp [vacate, putRequest]
    · rfl

theorem size_requests_drop (store : Store I V X) (r : Nat) :
    (store.drop r).requests.size = store.requests.size := by
  cases h : store.requests[r]? with
  | none => rw [drop_of_none h]
  | some q =>
    rw [drop_eq h]
    split <;> exact Array.size_setIfInBounds

/-! ### Polls -/

/-- How a poll of request number `r` can end. -/
inductive Polling (store : Store I V X) (r : Nat) : Option (Except CellError V) → Store I V X → Prop
  /-- There is no such request. -/
  | absent : store.requests[r]? = none → Polling store r none store
  | dropped (q : Request I) : store.requests[r]? = some q → q.dropped = true →
      Polling store r none store
  /-- The request waits behind the one in the slot. -/
  | behind (q : Request I) (i : Issued I) : store.requests[r]? = some q → q.dropped = false →
      q.instruction = some i → (store.slotAt q.slot).pending ≠ none → Polling store r none store
  | issued (q : Request I) (i : Issued I) : store.requests[r]? = some q → q.dropped = false →
      q.instruction = some i → (store.slotAt q.slot).pending = none →
      Polling store r none (store.occupy r q i)
  /-- The instruction is in the slot. -/
  | held (q : Request I) : store.requests[r]? = some q → q.instruction = none →
      store.holding q = true → Polling store r none store
  /-- The answer is what the cell gives. -/
  | read (q : Request I) : store.requests[r]? = some q → q.dropped = false →
      q.instruction = none → store.holding q = false →
      Polling store r (some (store.cellAt q.issued.cell).fetch.1)
        (store.putCell q.issued.cell (store.cellAt q.issued.cell).fetch.2)

section

variable {store : Store I V X} {r : Nat} {q : Request I} {i : Issued I}

theorem poll_of_dropped (h : store.requests[r]? = some q) (hd : q.dropped = true) :
    store.poll r = (none, store) := by
  simp only [poll, h, hd, if_true]

theorem poll_of_free (h : store.requests[r]? = some q) (hd : q.dropped = false)
    (hi : q.instruction = some i) (hp : (store.slotAt q.slot).pending = none) :
    store.poll r = (none, store.occupy r q i) := by
  simp only [poll, h, hi, hp]
  rw [if_neg (by simp [hd])]
  rfl

/-- A request that is polled while the slot is taken gets its instruction back. -/
theorem poll_of_taken (h : store.requests[r]? = some q) (hd : q.dropped = false)
    (hi : q.instruction = some i) (hp : (store.slotAt q.slot).pending ≠ none) :
    store.poll r = (none, store) := by
  obtain ⟨entry, hp⟩ := Option.ne_none_iff_exists'.mp hp
  simp only [poll, h, hi, hp]
  rw [if_neg (by simp [hd]), Request.put_back hi, putRequest_self h]

theorem poll_of_held (h : store.requests[r]? = some q) (hi : q.instruction = none)
    (hh : store.holding q = true) : store.poll r = (none, store) := by
  have ht := Bool.and_eq_true_iff.mp hh
  simp only [poll, h, hi, ht.2, if_true, ite_self]

theorem poll_of_issued (h : store.requests[r]? = some q) (hd : q.dropped = false)
    (hi : q.instruction = none) (hh : store.holding q = false) :
    store.poll r = (some (store.cellAt q.issued.cell).fetch.1,
      store.putCell q.issued.cell (store.cellAt q.issued.cell).fetch.2) := by
  rw [holding_of_ticket store hd] at hh
  simp only [poll, h, hd, hi, hh, takeCell_eq, Bool.false_eq_true, if_false]

end

theorem poll_cases (store : Store I V X) (r : Nat) :
    Polling store r (store.poll r).1 (store.poll r).2 := by
  cases h : store.requests[r]? with
  | none =>
    simp only [poll, h]
    exact .absent h
  | some q =>
    cases hd : q.dropped with
    | true => exact poll_of_dropped h hd ▸ .dropped q h hd
    | false =>
      cases hi : q.instruction with
      | some i =>
        by_cases hp : (store.slotAt q.slot).pending = none
        · exact poll_of_free h hd hi hp ▸ .issued q i h hd hi hp
        · exact poll_of_taken h hd hi hp ▸ .behind q i h hd hi hp
      | none =>
        cases hh : store.holding q with
        | true => exact poll_of_held h hi hh ▸ .held q h hi hh
        | false => exact poll_of_issued h hd hi hh ▸ .read q h hd hi hh

theorem sizes_polling {store store' : Store I V X} {r : Nat}
    {answer : Option (Except CellError V)} (h : Polling store r answer store') :
    store'.cells.size = store.cells.size ∧ store'.slots.size = store.slots.size ∧
      store'.requests.size = store.requests.size := by
  cases h with
  | issued => exact ⟨rfl, Array.size_setIfInBounds, Array.size_setIfInBounds⟩
  | read => exact ⟨Array.size_setIfInBounds, rfl, rfl⟩
  | _ => exact ⟨rfl, rfl, rfl⟩

theorem size_cells_poll (store : Store I V X) (r : Nat) :
    (store.poll r).2.cells.size = store.cells.size :=
  (sizes_polling (poll_cases store r)).1

theorem size_slots_poll (store : Store I V X) (r : Nat) :
    (store.poll r).2.slots.size = store.slots.size :=
  (sizes_polling (poll_cases store r)).2.1

theorem size_requests_poll (store : Store I V X) (r : Nat) :
    (store.poll r).2.requests.size = store.requests.size :=
  (sizes_polling (poll_cases store r)).2.2

/-! ### Scripts -/

theorem size_slots_act (store : Store I V X) (k : Nat) (action : Action I X) :
    (store.act k action).2.slots.size = store.slots.size := by
  cases action with
  | request i => rfl
  | poll r => exact size_slots_poll store r
  | drop r => exact size_slots_drop store r
  | look => rfl
  | share x => rfl

theorem size_slots_run {α : Type} (store : Store I V X) (k : Nat) (script : Script I V X α) :
    (script.run k store).2.slots.size = store.slots.size := by
  induction script generalizing store with
  | done a => rfl
  | act action next ih => exact (ih _ _).trans (size_slots_act store k action)

end Store

end Trampoline
