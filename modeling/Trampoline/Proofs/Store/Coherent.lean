import Trampoline.Proofs.Store.Fields

/-!
The store stays coherent under everything that is ever done to it: cells tell all requests apart,
tickets tell the requests of a slot apart, a request keeps its instruction until it gets a ticket, and
what is in a slot was put there by a request that was not dropped since.
-/
namespace Trampoline.Store

variable {I V X : Type}

/-- What every store satisfies that the operations of stores lead to. -/
structure Coherent (store : Store I V X) : Prop where
  slot_lt : ∀ {r : Nat} {q : Request I}, store.requests[r]? = some q → q.slot < store.slots.size
  cell_lt : ∀ {r : Nat} {q : Request I},
    store.requests[r]? = some q → q.issued.cell < store.cells.size
  cell_inj : ∀ {r s : Nat} {q p : Request I}, store.requests[r]? = some q →
    store.requests[s]? = some p → q.issued.cell = p.issued.cell → r = s
  /-- A request keeps its instruction exactly as long as it has no ticket. -/
  keeps : ∀ {r : Nat} {q : Request I}, store.requests[r]? = some q →
    q.instruction = if q.ticket.isNone then some q.issued else none
  ticket_le : ∀ {r t : Nat} {q : Request I}, store.requests[r]? = some q →
    q.ticket = some t → t ≤ (store.slotAt q.slot).issued
  ticket_inj : ∀ {r s t : Nat} {q p : Request I}, store.requests[r]? = some q →
    store.requests[s]? = some p → q.slot = p.slot → q.ticket = some t → p.ticket = some t → r = s
  holder : ∀ {k t : Nat} {issued : Issued I}, (store.slotAt k).pending = some (t, issued) →
    t = (store.slotAt k).issued ∧ ∃ (r : Nat) (q : Request I), store.requests[r]? = some q ∧
      q.slot = k ∧ q.standing = .issued t ∧ q.issued = issued

namespace Coherent

variable {store : Store I V X}

theorem fresh (shared : X) : (Store.fresh shared : Store I V X).Coherent where
  slot_lt h := by simp [Store.fresh] at h
  cell_lt h := by simp [Store.fresh] at h
  cell_inj h := by simp [Store.fresh] at h
  keeps h := by simp [Store.fresh] at h
  ticket_le h := by simp [Store.fresh] at h
  ticket_inj h := by simp [Store.fresh] at h
  holder h := by simp [Store.fresh, slotAt, Slot.fresh] at h

theorem share (hc : store.Coherent) (shared : X) :
    ({ store with shared := shared } : Store I V X).Coherent :=
  ⟨hc.slot_lt, hc.cell_lt, hc.cell_inj, hc.keeps, hc.ticket_le, hc.ticket_inj, hc.holder⟩

theorem putCell (hc : store.Coherent) (c : Nat) (cell : Cell V) :
    (store.putCell c cell).Coherent :=
  ⟨hc.slot_lt, fun h => by simpa [Store.putCell] using hc.cell_lt h, hc.cell_inj, hc.keeps,
    hc.ticket_le, hc.ticket_inj, hc.holder⟩

theorem issue (hc : store.Coherent) (i : I) : (store.issue i).2.Coherent where
  slot_lt h := hc.slot_lt h
  cell_lt h := by
    have := hc.cell_lt h
    simp only [Store.issue, newCell, Array.size_push]
    omega
  cell_inj h h' := hc.cell_inj h h'
  keeps h := hc.keeps h
  ticket_le h := hc.ticket_le h
  ticket_inj h h' := hc.ticket_inj h h'
  holder h := hc.holder h

theorem newSlot (hc : store.Coherent) : store.newSlot.2.Coherent where
  slot_lt h := by
    have := hc.slot_lt h
    simp only [Store.newSlot, Array.size_push]
    omega
  cell_lt h := hc.cell_lt h
  cell_inj h h' := hc.cell_inj h h'
  keeps h := hc.keeps h
  ticket_le h := by
    rw [slotAt_newSlot]
    exact hc.ticket_le h
  ticket_inj h h' := hc.ticket_inj h h'
  holder h := by
    rw [slotAt_newSlot] at h ⊢
    exact hc.holder h

theorem vacate (hc : store.Coherent) (k : Nat) : (store.vacate k).Coherent where
  slot_lt h := by simpa [Store.vacate] using hc.slot_lt h
  cell_lt h := hc.cell_lt h
  cell_inj h h' := hc.cell_inj h h'
  keeps h := hc.keeps h
  ticket_le h hs := by
    rw [slotAt_vacate]
    split <;> exact hc.ticket_le h hs
  ticket_inj h h' := hc.ticket_inj h h'
  holder {j t issued} h := by
    rw [slotAt_vacate] at h ⊢
    split at h
    · cases h
    · rename_i hk
      rw [if_neg hk]
      exact hc.holder h

theorem collect (hc : store.Coherent) (k : Nat) : (store.collect k).2.Coherent := by
  unfold Store.collect
  split
  · exact hc
  · exact hc.vacate k

/-- What a poll finds in a request that still keeps its instruction. -/
theorem of_instruction (hc : store.Coherent) {r : Nat} {q : Request I} {i : Issued I}
    (hq : store.requests[r]? = some q) (hd : q.dropped = false) (hi : q.instruction = some i) :
    q.standing = .waiting ∧ i = q.issued := by
  have hk := hc.keeps hq
  rw [hi] at hk
  cases ht : q.ticket with
  | none =>
    rw [ht] at hk
    exact ⟨Request.standing_eq_waiting_iff.mpr ⟨hd, ht⟩, Option.some.inj hk⟩
  | some t =>
    rw [ht] at hk
    cases hk

/-- A request that has no instruction any more was issued. -/
theorem of_no_instruction (hc : store.Coherent) {r : Nat} {q : Request I}
    (hq : store.requests[r]? = some q) (hd : q.dropped = false) (hi : q.instruction = none) :
    ∃ t, q.standing = .issued t := by
  have hk := hc.keeps hq
  rw [hi] at hk
  cases ht : q.ticket with
  | none =>
    rw [ht] at hk
    cases hk
  | some t => exact ⟨t, Request.standing_eq_issued_iff.mpr ⟨hd, ht⟩⟩

theorem instruction_of_waiting (hc : store.Coherent) {r : Nat} {q : Request I}
    (hq : store.requests[r]? = some q) (hw : q.standing = .waiting) :
    q.instruction = some q.issued := by
  rw [hc.keeps hq, (Request.standing_eq_waiting_iff.mp hw).2]
  rfl

/-- A new request gets a cell that no other request has. -/
theorem request (hc : store.Coherent) {k : Nat} (hk : k < store.slots.size) (i : I) :
    (store.request k i).2.Coherent := by
  have old {s : Nat} {p : Request I} (h : (store.request k i).2.requests[s]? = some p) :
      (s = store.requests.size ∧ p = .fresh ⟨i, store.cells.size⟩ k) ∨
        store.requests[s]? = some p := by
    rw [requests_request] at h
    split at h
    · exact .inl ⟨‹_›, (Option.some.inj h).symm⟩
    · exact .inr h
  have size : (store.request k i).2.cells.size = store.cells.size + 1 :=
    Array.size_push _
  constructor
  case slot_lt =>
    intro s p h
    obtain ⟨_, rfl⟩ | h := old h
    · exact hk
    · exact hc.slot_lt h
  case cell_lt =>
    intro s p h
    rw [size]
    obtain ⟨_, rfl⟩ | h := old h
    · exact Nat.lt_succ_self _
    · exact Nat.lt_succ_of_lt (hc.cell_lt h)
  case cell_inj =>
    intro s s' p p' h h' he
    obtain ⟨hs, rfl⟩ | h := old h <;> obtain ⟨hs', rfl⟩ | h' := old h'
    · exact hs.trans hs'.symm
    · exact absurd he.symm (Nat.ne_of_lt (hc.cell_lt h'))
    · exact absurd he (Nat.ne_of_lt (hc.cell_lt h))
    · exact hc.cell_inj h h' he
  case keeps =>
    intro s p h
    obtain ⟨_, rfl⟩ | h := old h
    · rfl
    · exact hc.keeps h
  case ticket_le =>
    intro s t p h ht
    obtain ⟨_, rfl⟩ | h := old h
    · cases ht
    · exact hc.ticket_le h ht
  case ticket_inj =>
    intro s s' t p p' h h' hk ht ht'
    obtain ⟨_, rfl⟩ | h := old h
    · cases ht
    · obtain ⟨_, rfl⟩ | h' := old h'
      · cases ht'
      · exact hc.ticket_inj h h' hk ht ht'
  case holder =>
    intro j t issued h
    obtain ⟨hl, s, p, hp, rest⟩ := hc.holder h
    refine ⟨hl, s, p, ?_, rest⟩
    rw [requests_request, if_neg]
    · exact hp
    · exact Nat.ne_of_lt (Array.getElem?_eq_some_iff.mp hp).1

/-- Taking a free slot gives a ticket that no other request has. -/
theorem occupy (hc : store.Coherent) {r : Nat} {q : Request I}
    (hq : store.requests[r]? = some q) (hd : q.dropped = false) :
    (store.occupy r q q.issued).Coherent := by
  have hk := hc.slot_lt hq
  have old {s : Nat} {p : Request I} (h : (store.occupy r q q.issued).requests[s]? = some p) :
      (s = r ∧ p = q.ticketed ((store.slotAt q.slot).issued + 1)) ∨ store.requests[s]? = some p := by
    rw [requests_occupy hq] at h
    split at h
    · exact .inl ⟨Eq.symm ‹_›, (Option.some.inj h).symm⟩
    · exact .inr h
  constructor
  case slot_lt =>
    intro s p h
    have size : (store.occupy r q q.issued).slots.size = store.slots.size :=
      Array.size_setIfInBounds
    rw [size]
    obtain ⟨_, rfl⟩ | hp := old h
    · exact hk
    · exact hc.slot_lt hp
  case cell_lt =>
    intro s p h
    obtain ⟨_, rfl⟩ | hp := old h
    · exact (hc.cell_lt hq : q.issued.cell < _)
    · exact hc.cell_lt hp
  case cell_inj =>
    intro s s' p p' h h' he
    obtain ⟨hs, rfl⟩ | hp := old h <;> obtain ⟨hs', rfl⟩ | hp' := old h'
    · exact hs.trans hs'.symm
    · exact hs.trans (hc.cell_inj hq hp' he)
    · exact (hc.cell_inj hp hq he).trans hs'.symm
    · exact hc.cell_inj hp hp' he
  case keeps =>
    intro s p h
    obtain ⟨_, rfl⟩ | hp := old h
    · rfl
    · exact hc.keeps hp
  case ticket_le =>
    intro s t p h ht
    rw [slotAt_occupy hk]
    obtain ⟨_, rfl⟩ | hp := old h
    · cases ht
      exact (if_pos rfl).symm ▸ Nat.le_refl _
    · have := hc.ticket_le hp ht
      split
      · exact Nat.le_succ_of_le this
      · exact this
  case ticket_inj =>
    intro s s' t p p' h h' he ht ht'
    obtain ⟨hs, rfl⟩ | hp := old h <;> obtain ⟨hs', rfl⟩ | hp' := old h'
    · exact hs.trans hs'.symm
    · cases ht
      have := hc.ticket_le hp' ht'
      rw [← he] at this
      exact absurd this (Nat.not_succ_le_self _)
    · cases ht'
      have := hc.ticket_le hp ht
      rw [he] at this
      exact absurd this (Nat.not_succ_le_self _)
    · exact hc.ticket_inj hp hp' he ht ht'
  case holder =>
    intro j t issued h
    rw [slotAt_occupy hk] at h ⊢
    by_cases hj : q.slot = j
    · subst hj
      rw [if_pos rfl] at h ⊢
      cases h
      have hr := requests_occupy hq q.issued r
      rw [if_pos rfl] at hr
      exact ⟨rfl, r, _, hr, rfl, Request.standing_ticketed hd _, rfl⟩
    · rw [if_neg hj] at h ⊢
      obtain ⟨hl, s, p, hp, hs, rest⟩ := hc.holder h
      refine ⟨hl, s, p, ?_, hs, rest⟩
      rw [requests_occupy hq, if_neg, hp]
      rintro rfl
      obtain rfl := Option.some.inj (hq.symm.trans hp)
      exact hj hs

theorem polling (hc : store.Coherent) {r : Nat} {answer : Option (Except CellError V)}
    {store' : Store I V X} (h : Polling store r answer store') : store'.Coherent := by
  cases h with
  | absent => exact hc
  | dropped => exact hc
  | behind => exact hc
  | held => exact hc
  | issued q i hq hd hi _ =>
    obtain ⟨_, rfl⟩ := hc.of_instruction hq hd hi
    exact hc.occupy hq hd
  | read => exact hc.putCell _ _

theorem poll (hc : store.Coherent) (r : Nat) : (store.poll r).2.Coherent :=
  hc.polling (poll_cases store r)

/-- A request that is dropped while its instruction is in the slot takes the instruction along. -/
theorem drop (hc : store.Coherent) (r : Nat) : (store.drop r).Coherent := by
  cases hq : store.requests[r]? with
  | none => rwa [drop_of_none hq]
  | some q =>
  have old {s : Nat} {p : Request I} (h : (store.drop r).requests[s]? = some p) :
      ∃ p', store.requests[s]? = some p' ∧ p.issued = p'.issued ∧ p.slot = p'.slot ∧
        p.instruction = p'.instruction ∧ p.ticket = p'.ticket := by
    rw [requests_drop] at h
    split at h
    · obtain ⟨p', hp', rfl⟩ := Option.map_eq_some_iff.mp h
      exact ⟨p', hp', rfl, rfl, rfl, rfl⟩
    · exact ⟨p, h, rfl, rfl, rfl, rfl⟩
  have issued (k : Nat) : ((store.drop r).slotAt k).issued = (store.slotAt k).issued := by
    rw [slotAt_drop hq]
    split <;> rfl
  constructor
  case slot_lt =>
    intro s p h
    obtain ⟨p', hp', _, hs, _⟩ := old h
    rw [size_slots_drop, hs]
    exact hc.slot_lt hp'
  case cell_lt =>
    intro s p h
    obtain ⟨p', hp', hi, _⟩ := old h
    rw [cells_drop, hi]
    exact hc.cell_lt hp'
  case cell_inj =>
    intro s s' p p' h h' he
    obtain ⟨_, hp, hi, _⟩ := old h
    obtain ⟨_, hp', hi', _⟩ := old h'
    rw [hi, hi'] at he
    exact hc.cell_inj hp hp' he
  case keeps =>
    intro s p h
    obtain ⟨p', hp', hi, _, hn, ht⟩ := old h
    rw [hn, ht, hi]
    exact hc.keeps hp'
  case ticket_le =>
    intro s t p h ht
    obtain ⟨_, hp, _, hs, _, ht'⟩ := old h
    rw [issued, hs]
    exact hc.ticket_le hp (ht' ▸ ht)
  case ticket_inj =>
    intro s s' t p p' h h' he ht ht'
    obtain ⟨_, hp, _, hs, _, hst⟩ := old h
    obtain ⟨_, hp', _, hs', _, hst'⟩ := old h'
    rw [hs, hs'] at he
    exact hc.ticket_inj hp hp' he (hst ▸ ht) (hst' ▸ ht')
  case holder =>
    intro k t i h
    rw [issued]
    rw [slotAt_drop hq] at h
    split at h
    · cases h
    rename_i hn
    obtain ⟨hl, s, p, hp, rfl, ht, hi⟩ := hc.holder h
    refine ⟨hl, s, p, ?_, rfl, ht, hi⟩
    rw [requests_drop, if_neg, hp]
    rintro rfl
    obtain rfl := Option.some.inj (hq.symm.trans hp)
    exact hn ⟨holding_eq_true_iff.mpr ⟨t, i, ht, h⟩, rfl⟩

theorem dropAll (hc : store.Coherent) (requests : List Nat) :
    (store.dropAll requests).Coherent := by
  induction requests generalizing store with
  | nil => exact hc
  | cons r rest ih => exact ih (hc.drop r)

theorem act (hc : store.Coherent) {k : Nat} (hk : k < store.slots.size) (action : Action I X) :
    (store.act k action).2.Coherent := by
  cases action with
  | request i => exact hc.request hk i
  | poll r => exact hc.poll r
  | drop r => exact hc.drop r
  | look => exact hc
  | share x => exact hc.share x

end Coherent

end Trampoline.Store
