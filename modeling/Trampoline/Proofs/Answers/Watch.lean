import Trampoline.Proofs.Answers.Fate
import Trampoline.Proofs.Store.Origins

/-!
A request is watched from before it is made. Whatever is done to the store and whatever happens in a run,
the request stands as its fate says, as long as only the run polls it, collects from its slot and
puts anything into its cell.
-/
namespace Trampoline

variable {I V X α T P S : Type}

open Happening

/-- What is known of request number `r`, which is made for the given instruction and slot if it is made
at all. Before that nothing can happen to it, since its cell is as yet unknown. -/
structure Watch (r : Nat) (origin : Issued I × Nat) (history : List (Happening I V))
    (store : Store I V X) (hand : Hand I) : Prop where
  coherent : store.Coherent
  hand_lt : ∀ {i : Issued I}, hand.issued? = some i → i.cell < store.cells.size
  unmade : store.view r = none → store.cells.size ≤ origin.1.cell →
    sights r origin.1.cell history = []
  fate : ∀ {v : View I V}, store.view r = some v → v.request.origin = origin →
    Fate r v hand (sights r origin.1.cell history)

namespace View.Polled

variable {v v' : View I V} {answer : Option (Except CellError V)}

theorem origin (h : v.Polled answer v') : v'.request.origin = v.request.origin := by
  cases h <;> rfl

theorem eq_of_dropped (h : v.Polled answer v') (hd : v.request.standing = .dropped) : v' = v := by
  cases h with
  | issued t hw =>
    rw [hd] at hw
    cases hw
  | read t ht _ =>
    rw [hd] at ht
    cases ht
  | _ => rfl

end View.Polled

namespace Watch

variable {r : Nat} {origin : Issued I × Nat} {history events : List (Happening I V)}
  {store store' : Store I V X} {hand : Hand I} {i : Issued I}

private theorem cell_of_origin {v : View I V} (h : v.request.origin = origin) :
    v.request.issued.cell = origin.1.cell :=
  congrArg (fun o => o.1.cell) h

/-- Nothing that concerns the request is done. -/
theorem frame (h : Watch r origin history store hand) (hc : store'.Coherent)
    (hs : store.cells.size ≤ store'.cells.size)
    (hn : store'.view r = none → store.view r = none)
    (hv : ∀ v, store'.view r = some v → v.request.origin = origin → store.view r = some v)
    (he : sights r origin.1.cell events = []) :
    Watch r origin (history ++ events) store' hand where
  coherent := hc
  hand_lt hi := Nat.lt_of_lt_of_le (h.hand_lt hi) hs
  unmade hn' hl := by
    rw [sights_append, he, List.append_nil]
    exact h.unmade (hn hn') (Nat.le_trans hs hl)
  fate hv' ho := by
    rw [sights_append, he, List.append_nil]
    exact h.fate (hv _ hv' ho) ho

theorem frame_eq (h : Watch r origin history store hand) (hc : store'.Coherent)
    (hs : store.cells.size ≤ store'.cells.size) (hv : store'.view r = store.view r)
    (he : sights r origin.1.cell events = []) :
    Watch r origin (history ++ events) store' hand :=
  h.frame hc hs (hv ▸ id) (fun _ hv' _ => hv ▸ hv') he

/-- Once the run is over, the request may even be dropped, or taken out of its slot. -/
theorem finish (h : Watch r origin history store hand) (hc : store'.Coherent)
    (hs : store.cells.size ≤ store'.cells.size) (ho : store'.origins = store.origins)
    (he : sights r origin.1.cell events = []) :
    Watch r origin (history ++ events) store' .ended where
  coherent := hc
  hand_lt hi := by cases hi
  unmade hn hl := by
    rw [sights_append, he, List.append_nil]
    refine h.unmade ?_ (Nat.le_trans hs hl)
    rw [Store.view_eq_none_iff] at hn ⊢
    have hz := congrArg Array.size ho
    simp only [Store.origins, Array.size_map] at hz
    exact hz ▸ hn
  fate {v'} hv' hv := by
    rw [sights_append, he, List.append_nil]
    have hr := Store.origins_of_some (Store.request_of_view hv')
    rw [ho, Store.origins, Array.getElem?_map, Option.map_eq_some_iff] at hr
    obtain ⟨q, hq, hqv⟩ := hr
    have hi : q.issued = v'.request.issued := congrArg Prod.fst hqv
    exact .ended (hi ▸ (h.fate (Store.view_eq hq) (hqv.trans hv)).faithful)

theorem close (h : Watch r origin history store hand) : Watch r origin history store .ended := by
  have h' : Watch r origin (history ++ []) store .ended :=
    h.finish h.coherent (Nat.le_refl _) rfl rfl
  rwa [List.append_nil] at h'

/-- Something is put into another cell. -/
theorem putCell (h : Watch r origin history store hand) {c : Nat}
    (hc : ∀ v, store.view r = some v → v.request.origin = origin → c ≠ origin.1.cell)
    (cell : Cell V) : Watch r origin history (store.putCell c cell) hand := by
  have hv := Store.view_putCell h.coherent c cell r
  have hz : store.cells.size ≤ (store.putCell c cell).cells.size := by simp [Store.putCell]
  rw [← List.append_nil history]
  refine h.frame (h.coherent.putCell c cell) hz (fun hn => ?_) (fun v hv' ho => ?_) rfl
  · rwa [hv, Option.map_eq_none_iff] at hn
  · rw [hv, Option.map_eq_some_iff] at hv'
    obtain ⟨w, hw, hv'⟩ := hv'
    split at hv'
    · subst hv'
      exact absurd ((cell_of_origin ho).symm.trans ‹_›) (Ne.symm (hc w hw ho))
    · exact hv' ▸ hw

/-! ### Actions -/

private theorem request (h : Watch r origin history store hand) {k : Nat}
    (hk : k < store.slots.size) (i : I) :
    Watch r origin (history ++ [requested store.requests.size]) (store.request k i).2 hand := by
  have hs : store.cells.size ≤ (store.request k i).2.cells.size := by
    simp [Store.request, Store.issue, Store.newCell]
  by_cases hr : r = store.requests.size
  · subst hr
    refine ⟨h.coherent.request hk i, fun hi => Nat.lt_of_lt_of_le (h.hand_lt hi) hs, ?_, ?_⟩
    · intro hn
      rw [Store.view_request_self] at hn
      cases hn
    · intro v hv ho
      rw [Store.view_request_self] at hv
      cases hv
      have hu := h.unmade (Store.view_eq_none_iff.mpr (Nat.le_refl _))
        (Nat.le_of_eq (cell_of_origin ho))
      rw [sights_append, hu]
      exact .kept 0 (.inr (.inl rfl)) rfl fun j hj => Nat.ne_of_lt (h.hand_lt hj)
  · exact h.frame_eq (h.coherent.request hk i) hs (Store.view_request_of_ne h.coherent k i hr) rfl

private theorem sights_polling_of_ne {s c : Nat} (hs : s ≠ r) :
    sights r c (store.polling s) = [] := by
  have hb : (s == r) = false := beq_eq_false_iff_ne.mpr hs
  rw [Store.polling]
  split
  · cases store.issues? s <;> simp [sights, concerns, hb]
  · rfl

private theorem sights_polling_self {c : Nat} (ha : store.alive r = true) :
    sights r c (store.polling r) = [polled r (store.poll r).1] := by
  rw [Store.polling, if_pos ha]
  cases store.issues? r <;> simp [sights, concerns]

theorem sights_dropping (store : Store I V X) (r c s : Nat) :
    sights r c (store.dropping s) = [] := by
  rw [Store.dropping]
  split
  · cases store.withdraws? s <;> simp [sights, concerns]
  · rfl

private theorem poll_of_ne (h : Watch r origin history store hand) {s : Nat} (hs : s ≠ r) :
    Watch r origin (history ++ store.polling s) (store.poll s).2 hand :=
  h.frame_eq (h.coherent.poll s) (Nat.le_of_eq (Store.size_cells_poll store s).symm)
    (Store.view_poll_of_ne h.coherent (Ne.symm hs)) (sights_polling_of_ne hs)

private theorem poll_self (h : Watch r origin history store .free) :
    Watch r origin (history ++ store.polling r) (store.poll r).2 .free := by
  have hc := h.coherent.poll r
  have hs := Nat.le_of_eq (Store.size_cells_poll store r).symm
  cases hv : store.view r with
  | none =>
    have hq : store.requests[r]? = none :=
      Array.getElem?_eq_none (Store.view_eq_none_iff.mp hv)
    have ha : store.alive r = false := by rw [Store.alive, hq]
    have hp : (store.poll r).2 = store := by rw [Store.poll, hq]
    refine h.frame_eq hc hs (by rw [hp]) ?_
    rw [Store.polling, ha]
    rfl
  | some v =>
    obtain ⟨v', hv', hp⟩ := Store.view_poll_self h.coherent hv
    have ho := hp.origin
    refine ⟨hc, (fun hi => by cases hi), fun hn => ?_, fun {w} hw hwo => ?_⟩
    · rw [hv'] at hn
      cases hn
    obtain rfl := Option.some.inj (hv'.symm.trans hw)
    have hf := h.fate hv (ho.symm.trans hwo)
    rw [sights_append]
    by_cases hd : v.request.standing = .dropped
    · rw [Store.polling, Store.alive_of_dropped (Store.request_of_view hv) hd, hp.eq_of_dropped hd]
      simpa [sights] using hf
    · rw [sights_polling_self (Store.alive_of_standing (Store.request_of_view hv) hd)]
      exact hf.poll hd hp

private theorem drop (h : Watch r origin history store hand) (s : Nat) :
    Watch r origin (history ++ store.dropping s) (store.drop s) hand := by
  have hc := h.coherent.drop s
  have hs : store.cells.size ≤ (store.drop s).cells.size :=
    Nat.le_of_eq (congrArg Array.size (store.cells_drop s)).symm
  have he := sights_dropping store r origin.1.cell s
  by_cases hr : r = s
  · subst hr
    cases hv : store.view r with
    | none =>
      have hq : store.requests[r]? = none :=
        Array.getElem?_eq_none (Store.view_eq_none_iff.mp hv)
      exact h.frame_eq hc hs (by rw [Store.drop_of_none hq]) he
    | some v =>
      have hv' := Store.view_drop_self hv
      refine ⟨hc, fun hi => Nat.lt_of_lt_of_le (h.hand_lt hi) hs, fun hn => ?_, fun {w} hw ho => ?_⟩
      · rw [hv'] at hn
        cases hn
      · obtain rfl := Option.some.inj (hv'.symm.trans hw)
        rw [sights_append, he, List.append_nil]
        exact (h.fate hv ho).drop
  · exact h.frame_eq hc hs (Store.view_drop_of_ne h.coherent hr) he

/-- An action of any description. The request itself is polled only while the run has nothing in
hand. -/
theorem act (h : Watch r origin history store hand) {k : Nat} (hk : k < store.slots.size)
    (action : Action I X) (hp : action = .poll r → hand = .free) :
    Watch r origin (history ++ store.acting action) (store.act k action).2 hand := by
  cases action with
  | request i => exact h.request hk i
  | poll s =>
    by_cases hs : s = r
    · subst hs
      obtain rfl := hp rfl
      exact h.poll_self
    · exact h.poll_of_ne hs
  | drop s => exact h.drop s
  | look => exact h.frame_eq h.coherent (Nat.le_refl _) rfl rfl
  | share x => exact h.frame_eq (h.coherent.share x) (Nat.le_refl _) rfl rfl

theorem run (h : Watch r origin history store .free) {k : Nat} (hk : k < store.slots.size)
    (script : Script I V X α) :
    Watch r origin (history ++ script.happenings k store) (script.run k store).2 .free := by
  induction script generalizing history store with
  | done a =>
    rw [Script.happenings, List.append_nil]
    exact h
  | act action next ih =>
    rw [Script.happenings, ← List.append_assoc]
    have hk' := Nat.lt_of_lt_of_eq hk (Store.size_slots_act store k action).symm
    exact ih _ (h.act hk action fun _ => rfl) hk'

/-! ### The slot -/

theorem newSlot (h : Watch r origin history store hand) (k : Nat) :
    Watch r origin (history ++ [opened k]) store.newSlot.2 hand :=
  h.frame_eq h.coherent.newSlot (Nat.le_refl _) (Store.view_newSlot store r) rfl

/-- The instruction that is collected is in the hand of the run from now on. -/
theorem collect (h : Watch r origin history store .free) {k : Nat} {i : Issued I} {suspended : Bool}
    {found : Option (Issued I)} (hi : (store.collect k).1 = some i) :
    Watch r origin (history ++ [collected k suspended found]) (store.collect k).2 (.awaiting i) := by
  have hs := store.cells_collect k
  obtain ⟨n, hp⟩ := Store.pending_of_collect hi
  obtain ⟨s, w, hw, hwh, hws, hwi⟩ := Store.exists_held h.coherent hp
  refine ⟨h.coherent.collect k, ?_, fun hn hl => ?_, fun {v'} hv' ho => ?_⟩
  · intro j hj
    cases hj
    rw [hs, ← hwi]
    exact h.coherent.cell_lt (Store.request_of_view hw)
  · rw [Store.view_collect, Option.map_eq_none_iff] at hn
    rw [sights_append, h.unmade hn (hs ▸ hl)]
    rfl
  · rw [Store.view_collect, Option.map_eq_some_iff] at hv'
    obtain ⟨v, hv, rfl⟩ := hv'
    have hf := h.fate hv ho
    have he : sights r origin.1.cell (history ++ [collected k suspended found]) =
        sights r origin.1.cell history := by
      rw [sights_append]
      exact List.append_nil _
    rw [he]
    by_cases hr : v.held = true ∧ v.request.slot = k
    · obtain ⟨n', hp'⟩ := (Store.held_iff h.coherent hv).mp hr.1
      rw [hr.2, hp] at hp'
      cases hp'
      simpa [hr.2] using hf.collect hr.1 (Store.standing_of_held hv hr.1)
    · have hu : (v.held && v.request.slot != k) = v.held := by
        cases hh : v.held with
        | false => rfl
        | true => simpa using fun hk => hr ⟨hh, hk⟩
      rw [hu]
      refine hf.take rfl fun hc => hr ?_
      obtain rfl := h.coherent.cell_inj (Store.request_of_view hw) (Store.request_of_view hv)
        (hwi ▸ hc)
      obtain rfl := Option.some.inj (hw.symm.trans hv)
      exact ⟨hwh, hws⟩

/-! ### Calls -/

theorem issue (h : Watch r origin history store .free) (i : I) :
    Watch r origin history (store.issue i).2 (.awaiting (store.issue i).1) := by
  have hs : store.cells.size ≤ (store.issue i).2.cells.size := by simp [Store.issue, Store.newCell]
  have hv := Store.view_issue h.coherent i r
  refine ⟨h.coherent.issue i, fun hi => ?_, fun hn hl => ?_, fun {v} hv' ho => ?_⟩
  · cases hi
    exact store.cell_issue_lt i
  · exact h.unmade (hv ▸ hn) (Nat.le_trans hs hl)
  · rw [hv] at hv'
    refine (h.fate hv' ho).take rfl fun hc => ?_
    exact absurd hc.symm (Nat.ne_of_lt (h.coherent.cell_lt (Store.request_of_view hv')))

/-- What the run takes in hand instead of an instruction with another cell makes no difference. -/
private theorem rehand (h : Watch r origin history store hand) (hi : hand.issued? = some i)
    (hc : i.cell ≠ origin.1.cell) (hand' : Hand I)
    (hi' : ∀ j, hand'.issued? = some j → j = i) : Watch r origin history store hand' := by
  refine ⟨h.coherent, fun hj => ?_, h.unmade, fun {v} hv ho => ?_⟩
  · rw [hi' _ hj]
    exact h.hand_lt hi
  · have hv' := cell_of_origin ho
    refine (h.fate hv ho).rehand (fun j hj => ?_) (fun he => ?_) fun j hj => ?_
    · rw [hi] at hj
      cases hj
      exact hv' ▸ hc
    · rw [he] at hi
      cases hi
    · rw [hi' j hj]
      exact hv' ▸ hc

private theorem sights_of_cell {c : Nat} {e : Happening I V} (h : concerns r c e = false) :
    sights r c [e] = [] := by
  simp [sights, h]

/-- An instruction in hand that has the request's cell is the instruction of the request. -/
private theorem own (h : Watch r origin history store hand) (hi : hand.issued? = some i)
    (hc : i.cell = origin.1.cell) :
    ¬ store.cells.size ≤ origin.1.cell ∧
      ∀ {v : View I V}, store.view r = some v → v.request.origin = origin → i = v.request.issued :=
  ⟨Nat.not_le.mpr (hc ▸ h.hand_lt hi), fun hv ho =>
    (h.fate hv ho).eq_of_cell hi (hc.trans (cell_of_origin ho).symm)⟩

theorem called (h : Watch r origin history store (.awaiting i)) :
    Watch r origin (history ++ [.called i]) store (.calling i) := by
  by_cases hc : i.cell = origin.1.cell
  · obtain ⟨hn, hv⟩ := h.own rfl hc
    refine ⟨h.coherent, h.hand_lt, fun _ hl => absurd hl hn, fun {v} hv' ho => ?_⟩
    obtain rfl := hv hv' ho
    have he : sights r origin.1.cell [.called v.request.issued] =
        ([.called v.request.issued] : List (Happening I V)) := by
      simp [sights, concerns, hc]
    rw [sights_append, he]
    exact (h.fate hv' ho).called
  · have h' := h.rehand rfl hc (.calling i) fun j hj => (Option.some.inj hj).symm
    exact h'.frame_eq h.coherent (Nat.le_refl _) rfl
      (sights_of_cell (beq_eq_false_iff_ne.mpr hc))

/-- The answer goes into the cell. -/
theorem answered (h : Watch r origin history store (.calling i)) {value : V} {cell : Cell V}
    (hs : (store.cellAt i.cell).set value = .ok cell) :
    Watch r origin (history ++ [.answered i value]) (store.putCell i.cell cell) .free := by
  have hz : store.cells.size ≤ (store.putCell i.cell cell).cells.size := by simp [Store.putCell]
  by_cases hc : i.cell = origin.1.cell
  · obtain ⟨hn, hown⟩ := h.own rfl hc
    refine ⟨h.coherent.putCell _ _, (fun hi => by cases hi), fun _ hl => absurd (Nat.le_trans hz hl) hn,
      fun {v'} hv' ho => ?_⟩
    rw [Store.view_putCell h.coherent, Option.map_eq_some_iff] at hv'
    obtain ⟨v, hv, hv'⟩ := hv'
    have ho' : v.request.origin = origin := by
      rw [← ho, ← hv']
      split <;> rfl
    obtain rfl := hown hv ho'
    rw [if_pos rfl] at hv'
    obtain ⟨he, hf, _⟩ := (h.fate hv ho').replied
    rw [Store.cell_of_view hv, he] at hs
    cases hs
    have hsg : sights r origin.1.cell [.answered v.request.issued value] =
        [.answered v.request.issued value] := by
      simp [sights, concerns, hc]
    rw [sights_append, hsg, ← hv']
    exact hf value
  · have h' := (h.rehand rfl hc .free fun _ hj => by cases hj).putCell (fun _ _ _ => hc) cell
    exact h'.frame_eq h'.coherent (Nat.le_refl _) rfl
      (sights_of_cell (beq_eq_false_iff_ne.mpr hc))

/-- The cell of a request that is answered was empty, so that an answer to be refused was for another
instruction. -/
theorem unfilled (h : Watch r origin history store (.calling i)) {value : V} {e : CellError}
    (hs : (store.cellAt i.cell).set value = .error e) :
    Watch r origin (history ++ [.answered i value]) store .ended := by
  by_cases hc : i.cell = origin.1.cell
  · obtain ⟨hn, hown⟩ := h.own rfl hc
    refine ⟨h.coherent, (fun hi => by cases hi), fun _ hl => absurd hl hn, fun {v} hv ho => ?_⟩
    obtain rfl := hown hv ho
    rw [Store.cell_of_view hv, (h.fate hv ho).replied.1] at hs
    cases hs
  · exact h.finish h.coherent (Nat.le_refl _) rfl (sights_of_cell (beq_eq_false_iff_ne.mpr hc))

theorem refused (h : Watch r origin history store (.calling i)) (failure : Failure) :
    Watch r origin (history ++ [.refused i failure]) store .ended := by
  by_cases hc : i.cell = origin.1.cell
  · obtain ⟨hn, hown⟩ := h.own rfl hc
    refine ⟨h.coherent, (fun hi => by cases hi), fun _ hl => absurd hl hn, fun {v} hv ho => ?_⟩
    obtain rfl := hown hv ho
    have hsg : sights r origin.1.cell [.refused v.request.issued failure] =
        ([.refused v.request.issued failure] : List (Happening I V)) := by
      simp [sights, concerns, hc]
    rw [sights_append, hsg]
    exact (h.fate hv ho).replied.2.2 failure
  · exact h.finish h.coherent (Nat.le_refl _) rfl (sights_of_cell (beq_eq_false_iff_ne.mpr hc))

/-! ### The end of a run -/

private theorem dropAll_frame (store : Store I V X) (rs : List Nat) :
    (store.dropAll rs).origins = store.origins ∧ (store.dropAll rs).cells = store.cells := by
  induction rs generalizing store with
  | nil => exact ⟨rfl, rfl⟩
  | cons s rest ih =>
    obtain ⟨ho, hc⟩ := ih (store.drop s)
    exact ⟨ho.trans (store.origins_drop s), hc.trans (store.cells_drop s)⟩

private theorem sights_droppings (store : Store I V X) (r c : Nat) (rs : List Nat) :
    sights r c (store.droppings rs) = [] := by
  induction rs generalizing store with
  | nil => rfl
  | cons s rest ih => rw [Store.droppings, sights_append, sights_dropping, ih]; rfl

theorem dropAll (h : Watch r origin history store hand) (rs : List Nat) :
    Watch r origin (history ++ store.droppings rs) (store.dropAll rs) .ended := by
  obtain ⟨ho, hc⟩ := dropAll_frame store rs
  exact h.finish (h.coherent.dropAll rs) (Nat.le_of_eq (congrArg Array.size hc).symm) ho
    (sights_droppings store r _ rs)

theorem discard (h : Watch r origin history store hand) (l : Language I V X T P S)
    (thunk : Thunk V P S) :
    Watch r origin (history ++ l.discarding thunk store) (l.discard thunk store) .ended := by
  cases thunk with
  | resume slot rest => exact h.dropAll _
  | build body => exact h.finish h.coherent (Nat.le_refl _) rfl rfl
  | fail failure => exact h.finish h.coherent (Nat.le_refl _) rfl rfl
  | answer cell next => exact h.finish h.coherent (Nat.le_refl _) rfl rfl
  | describe start => exact h.finish h.coherent (Nat.le_refl _) rfl rfl

end Watch

end Trampoline
