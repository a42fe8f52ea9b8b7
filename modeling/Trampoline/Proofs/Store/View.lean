import Trampoline.Proofs.Store.Coherent

/-!
What can be seen of a single request, and what each operation does to it. In a coherent store only the
operations on the request itself, on its cell and on its slot as a whole have any effect on it; polling
or dropping another request has none.
-/
namespace Trampoline

/-- What can be seen of a request. -/
structure View (I V : Type) where
  request : Request I
  /-- Whether its instruction is in the slot. -/
  held : Bool
  cell : Cell V

/-- What is left of a request that is dropped. -/
def View.drop {I V : Type} (v : View I V) : View I V :=
  ⟨v.request.drop, false, v.cell⟩

/-- What a poll of a request does to the request itself, with its answer. -/
inductive View.Polled {I V : Type} (v : View I V) : Option (Except CellError V) → View I V → Prop
  | dropped : v.request.standing = .dropped → v.Polled none v
  | behind : v.request.standing = .waiting → v.Polled none v
  | issued (t : Nat) : v.request.standing = .waiting →
      v.Polled none { v with request := v.request.ticketed t, held := true }
  | held : v.held = true → v.Polled none v
  | read (t : Nat) : v.request.standing = .issued t → v.held = false →
      v.Polled (some v.cell.fetch.1) { v with cell := v.cell.fetch.2 }

namespace Store

variable {I V X : Type} {store store' : Store I V X}

/-- The view of request number `r`. -/
def view (store : Store I V X) (r : Nat) : Option (View I V) :=
  store.requests[r]?.map fun q => ⟨q, store.holding q, store.cellAt q.issued.cell⟩

theorem view_eq {r : Nat} {q : Request I} (h : store.requests[r]? = some q) :
    store.view r = some ⟨q, store.holding q, store.cellAt q.issued.cell⟩ := by
  rw [view, h]; rfl

theorem request_of_view {r : Nat} {v : View I V} (h : store.view r = some v) :
    store.requests[r]? = some v.request := by
  obtain ⟨q, hq, rfl⟩ := Option.map_eq_some_iff.mp h
  exact hq

theorem view_lt {r : Nat} {v : View I V} (h : store.view r = some v) :
    r < store.requests.size :=
  (Array.getElem?_eq_some_iff.mp (request_of_view h)).1

theorem view_eq_none_iff {r : Nat} : store.view r = none ↔ store.requests.size ≤ r := by
  rw [view, Option.map_eq_none_iff, Array.getElem?_eq_none_iff]

theorem held_of_view {r : Nat} {v : View I V} (h : store.view r = some v) :
    store.holding v.request = v.held := by
  obtain ⟨q, hq, rfl⟩ := Option.map_eq_some_iff.mp h
  rfl

theorem cell_of_view {r : Nat} {v : View I V} (h : store.view r = some v) :
    store.cellAt v.request.issued.cell = v.cell := by
  obtain ⟨q, hq, rfl⟩ := Option.map_eq_some_iff.mp h
  rfl

private theorem view_congr {r : Nat} (hr : store'.requests[r]? = store.requests[r]?)
    (hh : ∀ q, store.requests[r]? = some q → store'.holding q = store.holding q)
    (hc : ∀ q, store.requests[r]? = some q →
      store'.cellAt q.issued.cell = store.cellAt q.issued.cell) :
    store'.view r = store.view r := by
  cases h : store.requests[r]? with
  | none => rw [view, view, hr, h]; rfl
  | some q => rw [view_eq h, view_eq (hr.trans h), hh q h, hc q h]

private theorem holding_congr {q : Request I}
    (h : store'.slotAt q.slot = store.slotAt q.slot) : store'.holding q = store.holding q := by
  unfold holding
  rw [h]

/-- A request is held exactly if its very instruction is in the slot. -/
theorem held_iff (hc : store.Coherent) {r : Nat} {v : View I V} (hv : store.view r = some v) :
    v.held = true ↔
      ∃ n, (store.slotAt v.request.slot).pending = some (n, v.request.issued) := by
  have hr := request_of_view hv
  rw [← held_of_view hv, holding_eq_true_iff]
  constructor
  · rintro ⟨t, issued, ht, hp⟩
    obtain ⟨_, s, p, hs, hk, hst, rfl⟩ := hc.holder hp
    obtain rfl := hc.ticket_inj hs hr hk (Request.ticket_of_issued hst) (Request.ticket_of_issued ht)
    obtain rfl := Option.some.inj (hs.symm.trans hr)
    exact ⟨t, hp⟩
  · rintro ⟨n, hp⟩
    obtain ⟨_, s, p, hs, _, hst, hi⟩ := hc.holder hp
    obtain rfl := hc.cell_inj hs hr (congrArg Issued.cell hi)
    obtain rfl := Option.some.inj (hs.symm.trans hr)
    exact ⟨n, _, hst, hp⟩

/-- The instruction in a slot belongs to a request that is held. -/
theorem exists_held (hc : store.Coherent) {k n : Nat} {issued : Issued I}
    (hp : (store.slotAt k).pending = some (n, issued)) :
    ∃ r v, store.view r = some v ∧ v.held = true ∧ v.request.slot = k ∧
      v.request.issued = issued := by
  obtain ⟨_, r, q, hq, rfl, _, rfl⟩ := hc.holder hp
  have hv := view_eq hq
  exact ⟨r, _, hv, (held_iff hc hv).mpr ⟨n, hp⟩, rfl, rfl⟩

theorem standing_of_held {r : Nat} {v : View I V} (hv : store.view r = some v)
    (h : v.held = true) : ∃ t, v.request.standing = .issued t :=
  standing_of_holding ((held_of_view hv).trans h)

/-! ### Operations that make something new -/

theorem view_newSlot (store : Store I V X) (r : Nat) : store.newSlot.2.view r = store.view r :=
  view_congr rfl (fun _ _ => holding_congr (slotAt_newSlot store _)) fun _ _ => rfl

theorem view_issue (hc : store.Coherent) (i : I) (r : Nat) :
    (store.issue i).2.view r = store.view r :=
  view_congr rfl (fun _ _ => rfl) fun _ h => cellAt_push .empty (hc.cell_lt h)

theorem view_request_of_ne (hc : store.Coherent) (k : Nat) (i : I) {r : Nat}
    (hr : r ≠ store.requests.size) : (store.request k i).2.view r = store.view r := by
  apply view_congr
  · rw [requests_request, if_neg hr]
  · exact fun _ _ => rfl
  · exact fun _ h => cellAt_push .empty (hc.cell_lt h)

theorem view_request_self (store : Store I V X) (k : Nat) (i : I) :
    (store.request k i).2.view store.requests.size =
      some ⟨.fresh ⟨i, store.cells.size⟩ k, false, .empty⟩ := by
  have h := requests_request store k i store.requests.size
  rw [if_pos rfl] at h
  have hc : (store.request k i).2.cellAt store.cells.size = .empty := by
    simp [request, issue, newCell, cellAt, Array.getD_eq_getD_getElem?]
  rw [view_eq h, holding_of_waiting _ rfl]
  exact congrArg (fun cell => some (View.mk _ false cell)) hc

/-! ### Cells -/

/-- Putting something into a cell is seen by the one request whose cell it is. -/
theorem view_putCell (hc : store.Coherent) (c : Nat) (cell : Cell V) (r : Nat) :
    (store.putCell c cell).view r =
      (store.view r).map fun v => if v.request.issued.cell = c then { v with cell := cell } else v := by
  cases hq : store.requests[r]? with
  | none => rw [view, view, show (store.putCell c cell).requests[r]? = none from hq, hq]; rfl
  | some q =>
    have hq' : (store.putCell c cell).requests[r]? = some q := hq
    rw [view_eq hq, view_eq hq', Option.map_some]
    by_cases he : q.issued.cell = c
    · subst he
      rw [if_pos rfl, cellAt_putCell_self cell (hc.cell_lt hq)]
      rfl
    · rw [if_neg he, cellAt_putCell_of_ne cell (Ne.symm he)]
      rfl

theorem view_putCell_self (hc : store.Coherent) {r : Nat} {v : View I V} (cell : Cell V)
    (hv : store.view r = some v) :
    (store.putCell v.request.issued.cell cell).view r = some { v with cell := cell } := by
  rw [view_putCell hc, hv, Option.map_some, if_pos rfl]

/-! ### Slots -/

theorem view_vacate (store : Store I V X) (k r : Nat) :
    (store.vacate k).view r =
      (store.view r).map fun v => { v with held := v.held && v.request.slot != k } := by
  cases hq : store.requests[r]? with
  | none => rw [view, view, show (store.vacate k).requests[r]? = none from hq, hq]; rfl
  | some q =>
    have hq' : (store.vacate k).requests[r]? = some q := hq
    rw [view_eq hq, view_eq hq']
    have hh : (store.vacate k).holding q = (store.holding q && q.slot != k) := by
      unfold holding
      rw [slotAt_vacate]
      by_cases hk : k = q.slot
      · rw [if_pos hk]
        cases q.ticket <;> simp [Slot.holds, hk]
      · rw [if_neg hk]
        simp [Ne.symm hk]
    rw [hh]
    rfl

/-- Collecting from a slot takes the instruction away from the one request that had put it there. -/
theorem view_collect (store : Store I V X) (k r : Nat) :
    (store.collect k).2.view r =
      (store.view r).map fun v => { v with held := v.held && v.request.slot != k } := by
  unfold collect
  split
  · rename_i hp
    cases hv : store.view r with
    | none => rfl
    | some v =>
      have hh : (v.held && v.request.slot != k) = v.held := by
        rw [← held_of_view hv]
        cases hh : store.holding v.request with
        | false => rfl
        | true =>
          obtain ⟨t, issued, _, hp'⟩ := holding_eq_true_iff.mp hh
          have hk : v.request.slot ≠ k := by
            rintro rfl
            rw [hp] at hp'
            cases hp'
          simp [hk]
      rw [Option.map_some, hh]
  · exact view_vacate store k r

/-! ### Polls and drops -/

theorem view_polling_of_ne (hc : store.Coherent) {r s : Nat} {answer : Option (Except CellError V)}
    (h : Polling store r answer store') (hs : s ≠ r) : store'.view s = store.view s := by
  cases h with
  | absent => rfl
  | dropped => rfl
  | behind => rfl
  | held => rfl
  | issued q i hq _ _ hf =>
    refine view_congr ?_ (fun p hp => ?_) fun _ _ => rfl
    · rw [requests_occupy hq, if_neg (Ne.symm hs)]
    · cases ht : p.standing with
      | waiting => rw [holding_of_waiting _ ht, holding_of_waiting _ ht]
      | dropped => rw [holding_of_dropped _ ht, holding_of_dropped _ ht]
      | issued t =>
        rw [holding_of_issued _ ht, holding_of_issued _ ht, slotAt_occupy (hc.slot_lt hq)]
        split
        · rename_i hk
          rw [hk] at hf
          -- The new ticket is later than all that were given out.
          have := hc.ticket_le hp (Request.ticket_of_issued ht)
          have hl : (store.slotAt p.slot).issued + 1 ≠ t := by omega
          simp [Slot.holds, hf, hl]
        · rfl
  | read q hq hd hi hn =>
    refine view_congr rfl (fun _ _ => rfl) fun p hp => ?_
    exact cellAt_putCell_of_ne _ fun he => hs (hc.cell_inj hp hq he.symm)

theorem view_poll_of_ne (hc : store.Coherent) {r s : Nat} (hs : s ≠ r) :
    (store.poll r).2.view s = store.view s :=
  view_polling_of_ne hc (poll_cases store r) hs

/-- A request that gets the slot. -/
theorem view_occupy_self (hc : store.Coherent) {r : Nat} {q : Request I}
    (hq : store.requests[r]? = some q) (hd : q.dropped = false) :
    (store.occupy r q q.issued).view r =
      some ⟨q.ticketed ((store.slotAt q.slot).issued + 1), true, store.cellAt q.issued.cell⟩ := by
  have hq' := requests_occupy hq q.issued r
  rw [if_pos rfl] at hq'
  have hh : (store.occupy r q q.issued).holding
      (q.ticketed ((store.slotAt q.slot).issued + 1)) = true := by
    rw [holding_of_issued _ (Request.standing_ticketed hd _), Request.slot_ticketed,
      slotAt_occupy (hc.slot_lt hq), if_pos rfl, Slot.holds]
    exact beq_self_eq_true _
  rw [view_eq hq', hh]
  rfl

theorem view_polling_self (hc : store.Coherent) {r : Nat} {answer : Option (Except CellError V)}
    {v : View I V} (h : Polling store r answer store') (hv : store.view r = some v) :
    ∃ v', store'.view r = some v' ∧ v.Polled answer v' := by
  have hr := request_of_view hv
  cases h with
  | absent hn =>
    rw [hn] at hr
    cases hr
  | dropped q hq ht =>
    obtain rfl := Option.some.inj (hq.symm.trans hr)
    exact ⟨v, hv, .dropped (Request.standing_eq_dropped_iff.mpr ht)⟩
  | behind q i hq hd hi _ =>
    obtain ⟨hw, -⟩ := hc.of_instruction hq hd hi
    obtain rfl := Option.some.inj (hq.symm.trans hr)
    exact ⟨v, hv, .behind hw⟩
  | held q hq _ hh =>
    obtain rfl := Option.some.inj (hq.symm.trans hr)
    exact ⟨v, hv, .held (held_of_view hv ▸ hh)⟩
  | issued q i hq hd hi _ =>
    obtain ⟨hw, rfl⟩ := hc.of_instruction hq hd hi
    obtain rfl := Option.some.inj (hq.symm.trans hr)
    exact ⟨_, view_occupy_self hc hq hd, cell_of_view hv ▸ .issued _ hw⟩
  | read q hq hd hi hn =>
    obtain ⟨t, ht⟩ := hc.of_no_instruction hq hd hi
    obtain rfl := Option.some.inj (hq.symm.trans hr)
    rw [held_of_view hv] at hn
    rw [cell_of_view hv]
    exact ⟨_, view_putCell_self hc _ hv, .read t ht hn⟩

/-- What a poll does to the request that is polled. -/
theorem view_poll_self (hc : store.Coherent) {r : Nat} {v : View I V}
    (hv : store.view r = some v) :
    ∃ v', (store.poll r).2.view r = some v' ∧ v.Polled (store.poll r).1 v' :=
  view_polling_self hc (poll_cases store r) hv

theorem view_drop_of_ne (hc : store.Coherent) {r s : Nat} (hs : s ≠ r) :
    (store.drop r).view s = store.view s := by
  cases hq : store.requests[r]? with
  | none => rw [drop_of_none hq]
  | some q =>
    refine view_congr ?_ (fun p hp => ?_) fun p _ => ?_
    · rw [requests_drop, if_neg (Ne.symm hs)]
    · cases ht : p.standing with
      | waiting => rw [holding_of_waiting _ ht, holding_of_waiting _ ht]
      | dropped => rw [holding_of_dropped _ ht, holding_of_dropped _ ht]
      | issued u =>
        rw [holding_of_issued _ ht, holding_of_issued _ ht, slotAt_drop hq]
        split
        · rename_i hk
          obtain ⟨t, issued, hqt, hpend⟩ := holding_eq_true_iff.mp hk.1
          rw [hk.2] at hpend
          have hu : t ≠ u := by
            rintro rfl
            exact hs (hc.ticket_inj hp hq hk.2.symm (Request.ticket_of_issued ht)
              (Request.ticket_of_issued hqt))
          simp [Slot.holds, hpend, hu]
        · rfl
    · unfold cellAt
      rw [cells_drop]

theorem view_drop_self {r : Nat} {v : View I V} (hv : store.view r = some v) :
    (store.drop r).view r = some v.drop := by
  have h := requests_drop store r r
  rw [if_pos rfl, request_of_view hv, Option.map_some] at h
  have hc : (store.drop r).cellAt v.request.issued.cell = v.cell := by
    rw [cellAt, cells_drop]
    exact cell_of_view hv
  rw [view_eq h, holding_of_dropped _ rfl, Request.issued_drop, hc]
  rfl

end Store

end Trampoline
