import Trampoline.Proofs.Dispatch.Tracked
import Trampoline.Proofs.History.Actions

/-!
A request is traced from before it is made, whatever is done to the store and whatever happens in a run.
Everybody may poll it and drop it; only its instruction must not be taken out of the slot by others.
-/
namespace Trampoline

variable {I V X α T P S : Type}

open Happening (passage)

/-- Request number `r`, which is made for the given instruction and slot if it is made at all. -/
structure Traced (r : Nat) (origin : Issued I × Nat) (history : List (Happening I V))
    (store : Store I V X) (hand : Hand I) : Prop where
  coherent : store.Coherent
  hand_lt : ∀ {i : Issued I}, hand.issued? = some i → i.cell < store.cells.size
  unmade : store.view r = none → store.cells.size ≤ origin.1.cell →
    ∀ e ∈ history, e.tells r origin.1.cell = false
  tracked : ∀ {v : View I V}, store.view r = some v → v.request.origin = origin →
    Tracked r v hand history

namespace Traced

variable {r : Nat} {origin : Issued I × Nat} {history events : List (Happening I V)}
  {store store' : Store I V X} {hand hand' : Hand I} {i : Issued I}

private theorem cell_of_origin {v : View I V} (h : v.request.origin = origin) :
    v.request.issued.cell = origin.1.cell :=
  congrArg (fun o => o.1.cell) h

/-- Nothing that tells of the request is done, though something may be put into its cell. -/
theorem frame (h : Traced r origin history store hand) (hc : store'.Coherent)
    (hs : store.cells.size ≤ store'.cells.size)
    (hn : store'.view r = none → store.view r = none)
    (hv : ∀ v', store'.view r = some v' → v'.request.origin = origin →
      ∃ v, store.view r = some v ∧ v'.request = v.request ∧ v'.held = v.held)
    (he : ∀ e ∈ events, e.tells r origin.1.cell = false) :
    Traced r origin (history ++ events) store' hand where
  coherent := hc
  hand_lt hi := Nat.lt_of_lt_of_le (h.hand_lt hi) hs
  unmade hn' hl e hm :=
    (List.mem_append.mp hm).elim (h.unmade (hn hn') (Nat.le_trans hs hl) e) (he e)
  tracked hv' ho := by
    obtain ⟨v, hv, hq, hh⟩ := hv _ hv' ho
    have ho' : v.request.origin = origin := hq ▸ ho
    exact (h.tracked hv ho').append hq hh (cell_of_origin ho' ▸ he)

theorem frame_eq (h : Traced r origin history store hand) (hc : store'.Coherent)
    (hs : store.cells.size ≤ store'.cells.size) (hv : store'.view r = store.view r)
    (he : ∀ e ∈ events, e.tells r origin.1.cell = false) :
    Traced r origin (history ++ events) store' hand :=
  h.frame hc hs (hv ▸ id) (fun v' hv' _ => ⟨v', hv ▸ hv', rfl, rfl⟩) he

/-- The run has taken something in hand that the request's instruction is not waiting in. -/
theorem rehand (h : Traced r origin history store hand)
    (hl : ∀ {i : Issued I}, hand'.issued? = some i → i.cell < store.cells.size)
    (ha : ∀ i, hand' = .awaiting i → ∀ v, store.view r = some v → v.request.origin = origin →
      i.cell ≠ v.request.issued.cell) : Traced r origin history store hand' where
  coherent := h.coherent
  hand_lt := hl
  unmade := h.unmade
  tracked hv ho := (h.tracked hv ho).rehand fun i hi => ha i hi _ hv ho

theorem close (h : Traced r origin history store hand) : Traced r origin history store .ended :=
  h.rehand nofun nofun

theorem free (h : Traced r origin history store hand) : Traced r origin history store .free :=
  h.rehand nofun nofun

theorem putCell (h : Traced r origin history store hand) (c : Nat) (cell : Cell V) :
    Traced r origin history (store.putCell c cell) hand := by
  have hv := Store.view_putCell h.coherent c cell r
  have hz : store.cells.size ≤ (store.putCell c cell).cells.size := by simp [Store.putCell]
  rw [← List.append_nil history]
  refine h.frame (h.coherent.putCell c cell) hz (fun hn => ?_) (fun v' hv' ho => ?_)
    (List.forall_mem_nil _)
  · rwa [hv, Option.map_eq_none_iff] at hn
  · rw [hv, Option.map_eq_some_iff] at hv'
    obtain ⟨w, hw, rfl⟩ := hv'
    refine ⟨w, hw, ?_⟩
    split <;> exact ⟨rfl, rfl⟩

/-! ### Actions -/

private theorem request (h : Traced r origin history store hand) {k : Nat}
    (hk : k < store.slots.size) (i : I) :
    Traced r origin (history ++ [.requested store.requests.size]) (store.request k i).2 hand := by
  have hs : store.cells.size ≤ (store.request k i).2.cells.size := by
    simp [Store.request, Store.issue, Store.newCell]
  have he : ∀ e ∈ ([.requested store.requests.size] : List (Happening I V)),
      e.tells r origin.1.cell = false := by
    simp [Happening.tells, Happening.moves]
  by_cases hr : r = store.requests.size
  · subst hr
    refine ⟨h.coherent.request hk i, fun hi => Nat.lt_of_lt_of_le (h.hand_lt hi) hs, ?_, ?_⟩
    · intro hn
      rw [Store.view_request_self] at hn
      cases hn
    · intro v hv ho
      rw [Store.view_request_self] at hv
      cases hv
      have hcell : store.cells.size = origin.1.cell := cell_of_origin ho
      have hu := h.unmade (Store.view_eq_none_iff.mpr (Nat.le_refl _)) (Nat.le_of_eq hcell)
      have hu' : ∀ e ∈ history ++ [.requested store.requests.size],
          e.tells store.requests.size store.cells.size = false := by
        rw [hcell]
        exact fun e hm => (List.mem_append.mp hm).elim (hu e) (he e)
      constructor
      case track =>
        change Track _ _ (passage _ store.cells.size _)
        rw [Happening.passage_eq_nil fun e hm => Happening.moves_of_tells (hu' e hm)]
        exact .waiting rfl
      case awaiting =>
        rintro j rfl hj
        exact absurd hj (Nat.ne_of_lt (h.hand_lt rfl))
      case read =>
        intro answer ha
        have := hu' _ ha
        simp [Happening.tells] at this
  · exact h.frame_eq (h.coherent.request hk i) hs (Store.view_request_of_ne h.coherent k i hr) he

/-- Once the request is made, nothing else counts. -/
private theorem made {v' : View I V} (hc : store'.Coherent)
    (hl : ∀ {i : Issued I}, hand.issued? = some i → i.cell < store'.cells.size)
    (hv : store'.view r = some v')
    (ht : v'.request.origin = origin → Tracked r v' hand history) :
    Traced r origin history store' hand where
  coherent := hc
  hand_lt := hl
  unmade hn := by
    rw [hv] at hn
    cases hn
  tracked hw ho := by
    obtain rfl := Option.some.inj (hv.symm.trans hw)
    exact ht ho

private theorem poll (h : Traced r origin history store hand) (s : Nat) :
    Traced r origin (history ++ store.polling s) (store.poll s).2 hand := by
  have hc := h.coherent.poll s
  have hs := Nat.le_of_eq (store.size_cells_poll s).symm
  by_cases hr : r = s
  · subst hr
    cases hv : store.view r with
    | none =>
      have hq : store.requests[r]? = none :=
        Array.getElem?_eq_none (Store.view_eq_none_iff.mp hv)
      have hp : (store.poll r).2 = store := by rw [Store.poll, hq]
      have hn : (store.polling r : List (Happening I V)) = [] := by
        rw [Store.polling, Store.alive, hq]
        rfl
      exact h.frame_eq hc hs (by rw [hp]) (hn ▸ List.forall_mem_nil _)
    | some v =>
      obtain ⟨v', hv', ht⟩ := Store.view_told h.coherent hv
      refine made hc (fun hi => Nat.lt_of_lt_of_le (h.hand_lt hi) hs) hv' fun ho => ?_
      exact (h.tracked hv (ht.origin ▸ ho)).told ht
  · refine h.frame_eq hc hs (Store.view_poll_of_ne h.coherent hr) fun e he => ?_
    have hb : (s == r) = false := beq_eq_false_iff_ne.mpr (Ne.symm hr)
    obtain rfl | ⟨slot, rfl⟩ := Store.mem_polling he <;> exact hb

private theorem drop (h : Traced r origin history store hand) (s : Nat) :
    Traced r origin (history ++ store.dropping s) (store.drop s) hand := by
  have hc := h.coherent.drop s
  have hs : store.cells.size ≤ (store.drop s).cells.size :=
    Nat.le_of_eq (congrArg Array.size (store.cells_drop s)).symm
  have hl : ∀ {i : Issued I}, hand.issued? = some i → i.cell < (store.drop s).cells.size :=
    fun hi => Nat.lt_of_lt_of_le (h.hand_lt hi) hs
  by_cases hr : r = s
  · subst hr
    cases ha : store.alive r with
    | false =>
      have hn : (store.dropping r : List (Happening I V)) = [] := by
        rw [Store.dropping, ha]
        rfl
      exact h.frame_eq hc hs (by rw [Store.drop_of_not_alive ha]) (hn ▸ List.forall_mem_nil _)
    | true =>
      obtain ⟨q, hq, hd⟩ := Store.exists_of_alive ha
      have hv := Store.view_eq hq
      refine made hc hl (Store.view_drop_self hv) fun ho => ?_
      rw [Store.dropping, if_pos ha, List.append_cons]
      refine ((h.tracked hv ho).drop (Request.standing_ne_dropped_iff.mpr hd)).append rfl rfl
        fun e he => ?_
      obtain ⟨_, _, rfl⟩ := List.mem_map.mp he
      rfl
  · refine h.frame_eq hc hs (Store.view_drop_of_ne h.coherent hr) fun e he => ?_
    have hb : (s == r) = false := beq_eq_false_iff_ne.mpr (Ne.symm hr)
    obtain rfl | ⟨slot, rfl⟩ := Store.mem_dropping he
    · exact hb
    · rfl

private theorem act (h : Traced r origin history store hand) {k : Nat} (hk : k < store.slots.size)
    (action : Action I X) :
    Traced r origin (history ++ store.acting action) (store.act k action).2 hand := by
  cases action with
  | request i => exact h.request hk i
  | poll s => exact h.poll s
  | drop s => exact h.drop s
  | look => exact h.frame_eq h.coherent (Nat.le_refl _) rfl (List.forall_mem_nil _)
  | share x => exact h.frame_eq (h.coherent.share x) (Nat.le_refl _) rfl (List.forall_mem_nil _)

/-! ### The slot and the handler -/

/-- What is in the hand of the run after a resumption was in the slot. -/
private theorem collect (h : Traced r origin history store .free) (k : Nat) (suspended : Bool) :
    Traced r origin (history ++ [.collected k suspended (store.collect k).1]) (store.collect k).2
      (.resumed suspended (store.collect k).1) := by
  have hc := h.coherent.collect k
  have hs := store.cells_collect k
  have holder {i : Issued I} (hi : (store.collect k).1 = some i) :
      ∃ s w, store.view s = some w ∧ w.held = true ∧ w.request.slot = k ∧ w.request.issued = i := by
    obtain ⟨n, hp⟩ := Store.pending_of_collect hi
    exact Store.exists_held h.coherent hp
  have lt {i : Issued I} (hi : (store.collect k).1 = some i) : i.cell < store.cells.size := by
    obtain ⟨s, w, hw, _, _, rfl⟩ := holder hi
    exact h.coherent.cell_lt (Store.request_of_view hw)
  have resumed {i : Issued I} (hi : (Hand.resumed suspended (store.collect k).1).issued? = some i) :
      (store.collect k).1 = some i := by
    cases suspended with
    | false => cases hi
    | true =>
      cases hf : (store.collect k).1 with
      | none =>
        rw [hf] at hi
        cases hi
      | some j =>
        rw [hf] at hi
        exact hi
  constructor
  case coherent => exact hc
  case hand_lt => exact fun hi => hs ▸ lt (resumed hi)
  case unmade =>
    intro hn hl e he
    rw [Store.view_collect, Option.map_eq_none_iff] at hn
    rw [hs] at hl
    rcases List.mem_append.mp he with he | he
    · exact h.unmade hn hl e he
    · obtain rfl := List.mem_singleton.mp he
      cases hf : (store.collect k).1 with
      | none => rfl
      | some i => exact beq_eq_false_iff_ne.mpr (Nat.ne_of_lt (Nat.lt_of_lt_of_le (lt hf) hl))
  case tracked =>
    intro v' hv' ho
    rw [Store.view_collect, Option.map_eq_some_iff] at hv'
    obtain ⟨v, hv, rfl⟩ := hv'
    have ht := h.tracked hv ho
    by_cases hr : v.held = true ∧ v.request.slot = k
    · obtain ⟨hh, rfl⟩ := hr
      obtain ⟨n, hp⟩ := (Store.held_iff h.coherent hv).mp hh
      have hf : (store.collect v.request.slot).1 = some v.request.issued := by
        rw [Store.collect, hp]
      obtain ⟨t, hst⟩ := Store.standing_of_held hv hh
      simpa [hf] using ht.collect hh hst suspended
    · have hu : (v.held && v.request.slot != k) = v.held := by
        cases hh : v.held with
        | false => rfl
        | true => simpa using fun hk => hr ⟨hh, hk⟩
      rw [hu]
      have other {i : Issued I} (hi : (store.collect k).1 = some i) :
          i.cell ≠ v.request.issued.cell := by
        intro hcell
        obtain ⟨s, w, hw, hwh, hwk, rfl⟩ := holder hi
        obtain rfl := h.coherent.cell_inj (Store.request_of_view hw) (Store.request_of_view hv) hcell
        obtain rfl := Option.some.inj (hw.symm.trans hv)
        exact hr ⟨hwh, hwk⟩
      refine (ht.append rfl rfl fun e he => ?_).rehand fun i hi => other (resumed (hi ▸ rfl))
      obtain rfl := List.mem_singleton.mp he
      cases hf : (store.collect k).1 with
      | none => rfl
      | some i => exact beq_eq_false_iff_ne.mpr (other hf)

private theorem issue (h : Traced r origin history store .free) (i : I) :
    Traced r origin history (store.issue i).2 (.awaiting (store.issue i).1) := by
  have hs : store.cells.size ≤ (store.issue i).2.cells.size := by simp [Store.issue, Store.newCell]
  have hv := Store.view_issue h.coherent i r
  have h' : Traced r origin (history ++ []) (store.issue i).2 .free :=
    h.frame_eq (h.coherent.issue i) hs hv (List.forall_mem_nil _)
  rw [List.append_nil] at h'
  refine h'.rehand (fun hi => ?_) fun j hj v hv' _ => ?_
  · cases hi
    exact store.cell_issue_lt i
  · cases hj
    rw [hv] at hv'
    exact Ne.symm (Nat.ne_of_lt (h.coherent.cell_lt (Store.request_of_view hv')))

private theorem called (h : Traced r origin history store (.awaiting i)) :
    Traced r origin (history ++ [.called i]) store (.calling i) := by
  have hb := h.hand_lt rfl
  constructor
  case coherent => exact h.coherent
  case hand_lt => exact h.hand_lt
  case unmade =>
    intro hn hl e he
    rcases List.mem_append.mp he with he | he
    · exact h.unmade hn hl e he
    · obtain rfl := List.mem_singleton.mp he
      exact beq_eq_false_iff_ne.mpr (Nat.ne_of_lt (Nat.lt_of_lt_of_le hb hl))
  case tracked =>
    intro v hv ho
    have ht := h.tracked hv ho
    by_cases hc : i.cell = v.request.issued.cell
    · obtain ⟨rfl, _⟩ := ht.awaiting rfl hc
      exact ht.called
    · refine (ht.append rfl rfl fun e he => ?_).rehand nofun
      obtain rfl := List.mem_singleton.mp he
      exact beq_eq_false_iff_ne.mpr hc

/-- Nothing is told that has no part in it. -/
private theorem silent (h : Traced r origin history store hand) {e : Happening I V}
    (he : e.tells r origin.1.cell = false) : Traced r origin (history ++ [e]) store hand :=
  h.frame_eq h.coherent (Nat.le_refl _) rfl fun _ hm => List.mem_singleton.mp hm ▸ he

/-- The trace is lost at no stride, as long as nobody else takes the instruction out of the slot. -/
theorem steady (r : Nat) (origin : Issued I × Nat) :
    Steady (fun deed => deed ≠ .collect origin.2) (Traced (V := V) (X := X) r origin) where
  stop h := h.close
  stride h hs := by
    cases hs with
    | act k action hk => exact h.act hk action
    | opened =>
      exact h.frame_eq h.coherent.newSlot (Nat.le_refl _) (Store.view_newSlot _ r) fun e he => by
        rw [List.mem_singleton.mp he]
        rfl
    | collect k suspended => exact h.collect k suspended
    | issue i => exact List.append_nil _ ▸ h.issue i
    | read cell _ => exact List.append_nil _ ▸ h.putCell _ cell
    | called i => exact h.called
    | leave i cell => exact List.append_nil _ ▸ h.putCell _ cell
    | answered i value cell => exact ((h.putCell _ cell).silent rfl).free
    | rejected i value => exact (h.silent rfl).close
    | refused i failure => exact (h.silent rfl).close
    | halt => exact List.append_nil _ ▸ h.close
  deed deed ha h := by
    cases deed with
    | act k action =>
      rw [Deed.happenings, Deed.apply]
      split
      · exact h.act ‹_› action
      · exact List.append_nil _ ▸ h
    | newSlot =>
      exact h.frame_eq h.coherent.newSlot (Nat.le_refl _) (Store.view_newSlot _ r)
        (List.forall_mem_nil _)
    | issue i =>
      exact h.frame_eq (h.coherent.issue i) (by simp [Deed.apply, Store.issue, Store.newCell])
        (Store.view_issue h.coherent i r) (List.forall_mem_nil _)
    | putCell c cell => exact List.append_nil _ ▸ h.putCell c cell
    | collect k =>
      refine h.frame (h.coherent.collect k)
        (Nat.le_of_eq (congrArg Array.size (Store.cells_collect _ k)).symm) (fun hn => ?_)
        (fun v' hv' ho => ?_) (List.forall_mem_nil _)
      · rwa [Deed.apply, Store.view_collect, Option.map_eq_none_iff] at hn
      · rw [Deed.apply, Store.view_collect, Option.map_eq_some_iff] at hv'
        obtain ⟨v, hv, rfl⟩ := hv'
        have hk : v.request.slot ≠ k := fun hk => ha (hk ▸ congrArg (Deed.collect ∘ Prod.snd) ho)
        exact ⟨v, hv, rfl, by simp [hk]⟩

/-- The request is not there yet, since its slot is not. -/
theorem start (hc : store.Coherent) (hk : store.slots.size ≤ origin.2) :
    Traced r origin [] store .free where
  coherent := hc
  hand_lt := nofun
  unmade := nofun
  tracked {v} hv ho := by
    have hs : v.request.slot = origin.2 := congrArg Prod.snd ho
    exact absurd (hs ▸ hc.slot_lt (Store.request_of_view hv)) (Nat.not_lt.mpr hk)

end Traced

end Trampoline
