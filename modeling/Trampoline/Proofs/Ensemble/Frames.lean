import Trampoline.Proofs.Ensemble.Belongings

/-!
What a description does to the requests of others, and to its own, leaves every other slot as it is and
every request that is for that slot. A slot changes only if its own requests are polled or dropped, or
if its own description makes requests or comes to the end of a resumption.
-/
namespace Trampoline

variable {I V X : Type}

/-- The request that is polled or dropped. Nothing can be done to a request that is no more. -/
def Happening.touched? : Happening I V → Option Nat
  | polled r _ => some r
  | dropped r => some r
  | _ => none

/-- What comes of polling a request, given whether its slot is taken and the next ticket of the slot. -/
def View.poll (taken : Bool) (ticket : Nat) (v : View I V) : Option (Except CellError V) × View I V :=
  match v.request.standing, taken, v.held with
  | .dropped, _, _ => (none, v)
  | .waiting, true, _ => (none, v)
  | .waiting, false, _ => (none, ⟨v.request.ticketed ticket, true, v.cell⟩)
  | .issued _, _, true => (none, v)
  | .issued _, _, false => (some v.cell.fetch.1, { v with cell := v.cell.fetch.2 })

namespace Store

variable {store store' store'' : Store I V X} {k j r : Nat}

/-- A slot is taken by a request that is in it. -/
theorem taken_iff_occupies (hc : store.Coherent) : store.taken k = true ↔ ∃ r, store.Occupies k r := by
  rw [taken, Option.isSome_iff_exists]
  constructor
  · rintro ⟨⟨n, i⟩, hp⟩
    obtain ⟨r, v, hv, hh, hk, _⟩ := exists_held hc hp
    exact ⟨r, v, hv, hh, hk⟩
  · rintro ⟨r, v, hv, hh, rfl⟩
    obtain ⟨n, hp⟩ := (held_iff hc hv).mp hh
    exact ⟨_, hp⟩

theorem mem_polling_of_alive (ha : store.alive r = true) :
    .polled r (store.poll r).1 ∈ (store.polling r : List (Happening I V)) := by
  rw [polling, if_pos ha]
  exact List.mem_cons_self

theorem mem_dropping_of_alive (ha : store.alive r = true) :
    .dropped r ∈ (store.dropping r : List (Happening I V)) := by
  rw [dropping, if_pos ha]
  exact List.mem_cons_self

theorem poll_eq_view (hc : store.Coherent) {v : View I V} (hv : store.view r = some v) :
    (store.poll r).1 =
        (v.poll (store.taken v.request.slot) ((store.slotAt v.request.slot).issued + 1)).1 ∧
      (store.poll r).2.view r =
        some (v.poll (store.taken v.request.slot) ((store.slotAt v.request.slot).issued + 1)).2 := by
  have hr := request_of_view hv
  have h := poll_cases store r
  generalize (store.poll r).1 = answer, (store.poll r).2 = store' at h ⊢
  cases h with
  | absent hq =>
    rw [hq] at hr
    cases hr
  | dropped q hq hd =>
    cases hq.symm.trans hr
    simp only [View.poll, Request.standing_eq_dropped_iff.mpr hd, hv, and_self]
  | behind q i hq hd hi hp =>
    obtain ⟨hw, -⟩ := hc.of_instruction hq hd hi
    cases hq.symm.trans hr
    have ht : store.taken v.request.slot = true := Option.isSome_iff_ne_none.mpr hp
    simp only [View.poll, hw, ht, hv, and_self]
  | issued q i hq hd hi hp =>
    obtain ⟨hw, rfl⟩ := hc.of_instruction hq hd hi
    cases hq.symm.trans hr
    have ht : store.taken v.request.slot = false := by rw [taken, hp]; rfl
    simp only [View.poll, hw, ht, view_occupy_self hc hq hd, cell_of_view hv, and_self]
  | held q hq _ hh =>
    cases hq.symm.trans hr
    obtain ⟨t, hs⟩ := standing_of_holding hh
    have hh' : v.held = true := (held_of_view hv).symm.trans hh
    simp only [View.poll, hs, hh', hv, and_self]
  | read q hq hd hi hh =>
    obtain ⟨t, hs⟩ := hc.of_no_instruction hq hd hi
    cases hq.symm.trans hr
    have hh' : v.held = false := (held_of_view hv).symm.trans hh
    simp only [View.poll, hs, hh', cell_of_view hv, view_putCell_self hc _ hv, and_self]

/-- Slot number `k` is as it was, and all requests that are for it; no such request is new. -/
structure Untouched (k : Nat) (store store' : Store I V X) : Prop where
  coherent : store'.Coherent
  slots : store.slots.size ≤ store'.slots.size
  slot : store'.slotAt k = store.slotAt k
  view : ∀ {r : Nat} {v : View I V}, v.request.slot = k →
    (store'.view r = some v ↔ store.view r = some v)

namespace Untouched

theorem refl (k : Nat) (hc : store.Coherent) : Untouched k store store :=
  ⟨hc, Nat.le_refl _, rfl, fun _ => Iff.rfl⟩

theorem trans (h : Untouched k store store') (h' : Untouched k store' store'') :
    Untouched k store store'' :=
  ⟨h'.coherent, Nat.le_trans h.slots h'.slots, h'.slot.trans h.slot,
    fun hk => (h'.view hk).trans (h.view hk)⟩

theorem taken (h : Untouched k store store') : store'.taken k = store.taken k := by
  rw [Store.taken, Store.taken, h.slot]

/-- A poll of a request for the slot comes to the same as before. -/
theorem polls (h : Untouched k store store') (hc : store.Coherent) {v : View I V}
    (hv : store.view r = some v) (hk : v.request.slot = k) :
    (store'.poll r).1 = (store.poll r).1 ∧ (store'.poll r).2.view r = (store.poll r).2.view r := by
  obtain ⟨ha, hw⟩ := poll_eq_view hc hv
  obtain ⟨ha', hw'⟩ := poll_eq_view h.coherent ((h.view hk).mpr hv)
  rw [ha, hw, ha', hw', hk, h.taken, h.slot]
  exact ⟨rfl, rfl⟩

/-- Nothing but a single request is changed, which is for another slot. -/
private theorem of_other (hc : store'.Coherent) (hs : store.slots.size ≤ store'.slots.size)
    (hk : store'.slotAt k = store.slotAt k) (hv : ∀ s, s ≠ r → store'.view s = store.view s)
    (hr : ∀ v, store.view r = some v → v.request.slot ≠ k)
    (hr' : ∀ v, store'.view r = some v → v.request.slot ≠ k) : Untouched k store store' := by
  refine ⟨hc, hs, hk, fun {s v} hv' => ?_⟩
  by_cases hsr : s = r
  · subst hsr
    exact iff_of_false (fun h => hr' v h hv') fun h => hr v h hv'
  · rw [hv s hsr]

private theorem slot_of_origin {o : Issued I × Nat} (ho : store.origins[r]? = some o) {v : View I V}
    (hv : store.view r = some v) : v.request.slot = o.2 := by
  rw [origins_of_some (request_of_view hv)] at ho
  cases ho
  rfl

theorem poll (hc : store.Coherent)
    (hr : ∀ q, store.requests[r]? = some q → q.dropped = false → q.slot ≠ k) :
    Untouched k store (store.poll r).2 := by
  have other {q : Request I} (hq : store.requests[r]? = some q) (hs : q.dropped = false)
      (hk : (store.poll r).2.slotAt k = store.slotAt k) : Untouched k store (store.poll r).2 := by
    have ho := origins_of_some hq
    refine of_other (r := r) (hc.poll r) (Nat.le_of_eq (store.size_slots_poll r).symm) hk
      (fun s hs => view_poll_of_ne hc hs) (fun v hv => ?_) fun v hv => ?_
    · rw [slot_of_origin ho hv]
      exact hr q hq hs
    · rw [slot_of_origin ((store.origins_poll r).symm ▸ ho) hv]
      exact hr q hq hs
  have h := poll_cases store r
  generalize (store.poll r).1 = answer, (store.poll r).2 = store' at h other ⊢
  cases h with
  | absent => exact .refl k hc
  | dropped => exact .refl k hc
  | behind => exact .refl k hc
  | held => exact .refl k hc
  | issued q i hq hd _ _ => exact other hq hd (slotAt_occupy_of_ne i (hr q hq hd))
  | read q hq hd _ _ => exact other hq hd rfl

theorem drop (hc : store.Coherent)
    (hr : ∀ q, store.requests[r]? = some q → q.dropped = false → q.slot ≠ k) :
    Untouched k store (store.drop r) := by
  cases ha : store.alive r with
  | false =>
    rw [drop_of_not_alive ha]
    exact .refl k hc
  | true =>
    obtain ⟨q, hq, hd⟩ := exists_of_alive ha
    have hv := view_eq hq
    have hk := hr q hq hd
    have hs : (store.drop r).slotAt k = store.slotAt k := by
      rw [slotAt_drop hq, if_neg fun h => hk h.2]
    refine of_other (hc.drop r) (Nat.le_of_eq (store.size_slots_drop r).symm) hs
      (fun s => view_drop_of_ne hc) (fun w hw => ?_) fun w hw => ?_
    · cases hv.symm.trans hw
      exact hk
    · cases (view_drop_self hv).symm.trans hw
      exact hk

theorem request (hc : store.Coherent) (hj : j < store.slots.size) (hk : j ≠ k) (i : I) :
    Untouched k store (store.request j i).2 := by
  refine of_other (r := store.requests.size) (hc.request hj i) (Nat.le_refl _) rfl
    (fun s => view_request_of_ne hc j i) (fun v hv => ?_) fun v hv => ?_
  · exact absurd (view_lt hv) (Nat.lt_irrefl _)
  · cases (view_request_self store j i).symm.trans hv
    exact hk

theorem collect (hc : store.Coherent) (hk : j ≠ k) : Untouched k store (store.collect j).2 := by
  refine ⟨hc.collect j, Nat.le_of_eq (store.size_slots_collect j).symm, ?_, fun {r v} hv => ?_⟩
  · unfold Store.collect
    split
    · rfl
    · dsimp only
      rw [slotAt_vacate, if_neg hk]
  · rw [view_collect]
    cases store.view r with
    | none => rfl
    | some w =>
      rw [Option.map_some, Option.some.injEq, Option.some.injEq]
      have hs : w.request.slot = k → ({ w with held := w.held && w.request.slot != j } : View I V) = w := by
        rintro rfl
        rw [bne_iff_ne.mpr (Ne.symm hk), Bool.and_true]
      constructor
      · rintro rfl
        exact (hs hv).symm
      · rintro rfl
        exact hs hv

/-- The cell belongs to a request for another slot. -/
theorem putCell (hc : store.Coherent) {i : Issued I} (ho : store.Owns j i) (hk : j ≠ k)
    (cell : Cell V) : Untouched k store (store.putCell i.cell cell) := by
  obtain ⟨r, ho⟩ := ho
  have hv := view_putCell hc i.cell cell
  refine of_other (r := r) (hc.putCell _ _) (Nat.le_refl _) rfl (fun s hs => ?_) (fun v hw => ?_)
    fun v hw => ?_
  · rw [hv]
    cases hw : store.view s with
    | none => rfl
    | some w =>
      rw [Option.map_some, if_neg]
      intro he
      rw [origins, Array.getElem?_map, Option.map_eq_some_iff] at ho
      obtain ⟨q, hq, ⟨⟩⟩ := ho
      exact hs (hc.cell_inj (request_of_view hw) hq he)
  · rw [slot_of_origin ho hw]
    exact hk
  · have ho' : (store.putCell i.cell cell).origins[r]? = some (i, j) := ho
    rw [slot_of_origin ho' hw]
    exact hk

theorem newSlot (hc : store.Coherent) (k : Nat) : Untouched k store store.newSlot.2 :=
  ⟨hc.newSlot, by simp [Store.newSlot], slotAt_newSlot store k, fun _ => by rw [view_newSlot]⟩

theorem share (hc : store.Coherent) (k : Nat) (x : X) : Untouched k store { store with shared := x } :=
  ⟨hc.share x, Nat.le_refl _, rfl, fun _ => Iff.rfl⟩

end Untouched

end Store

open Store (Untouched)

section Strides

variable {slot slot' : Option Nat} {j k : Nat} {store store' : Store I V X}
  {events : List (Happening I V)} {hand hand' : Hand I} {mine : Nat → Prop}

/-- An action of another description that touches no request for the slot. -/
private theorem untouched_act (hc : store.Coherent) (hj : j < store.slots.size) (hk : j ≠ k)
    (hm : ∀ {r : Nat} {i : Issued I}, store.origins[r]? = some (i, k) → mine r) (action : Action I X)
    (ht : ∀ e ∈ (store.acting action : List (Happening I V)), ∀ r, e.touched? = some r → ¬ mine r) :
    Untouched k store (store.act j action).2 := by
  have other {r : Nat} (h : store.alive r = true → ¬ mine r) :
      ∀ q, store.requests[r]? = some q → q.dropped = false → q.slot ≠ k := by
    rintro q hq hd rfl
    exact h (Store.alive_of_not_dropped hq hd) (hm (Store.origins_of_some hq))
  cases action with
  | request i => exact .request hc hj hk i
  | poll r => exact .poll hc (other fun ha => ht _ (Store.mem_polling_of_alive ha) r rfl)
  | drop r => exact .drop hc (other fun ha => ht _ (Store.mem_dropping_of_alive ha) r rfl)
  | look => exact .refl k hc
  | share x => exact .share hc k x

private theorem Pace.untouched (h : Pace j hand store events hand' store') (hc : store.Coherent)
    (hk : j ≠ k) (hh : ∀ {i : Issued I}, hand.issued? = some i → store.Owns j i)
    (hm : ∀ {r : Nat} {i : Issued I}, store.origins[r]? = some (i, k) → mine r)
    (ht : ∀ e ∈ events, ∀ r, e.touched? = some r → ¬ mine r) : Untouched k store store' := by
  cases h with
  | act action hj => exact untouched_act hc hj hk hm action ht
  | collect suspended => exact .collect hc hk
  | leave i cell => exact .putCell hc (hh rfl) hk cell
  | answered i value cell => exact .putCell hc (hh rfl) hk cell
  | called => exact .refl k hc
  | rejected => exact .refl k hc
  | refused => exact .refl k hc

private theorem Paces.untouched (h : Paces j hand store events hand' store') (hc : store.Coherent)
    (hk : j ≠ k) (hh : ∀ {i : Issued I}, hand.issued? = some i → store.Owns j i)
    (hm : ∀ {r : Nat} {i : Issued I}, store'.origins[r]? = some (i, k) → mine r)
    (ht : ∀ e ∈ events, ∀ r, e.touched? = some r → ¬ mine r) : Untouched k store store' := by
  induction h with
  | refl => exact .refl k hc
  | tail hp pace ih =>
    have hb := hp.belonging hc hh
    have hp' := pace.belonging hb.coherent hb.owns
    exact (ih hc hh (fun ho => hm (hp'.recalls ho)) fun e he => ht e (List.mem_append_left _ he)).trans
      (pace.untouched hb.coherent hk hb.owns (fun ho => hm (hp'.recalls ho)) fun e he =>
        ht e (List.mem_append_right _ he))

/-- A turn of the run of another description leaves a slot alone if it touches none of the requests for
that slot. -/
theorem Leg.untouched (h : Leg slot hand store events slot' hand' store') (hc : store.Coherent)
    (hs : slot' ≠ some k)
    (hh : ∀ {i : Issued I}, hand.issued? = some i → ∃ k, slot = some k ∧ store.Owns k i)
    (hm : ∀ {r : Nat} {i : Issued I}, store'.origins[r]? = some (i, k) → mine r)
    (ht : ∀ e ∈ events, ∀ r, e.touched? = some r → ¬ mine r) : Untouched k store store' := by
  have other {j : Nat} (h : slot' = some j) : j ≠ k := fun hj => hs (hj ▸ h)
  cases h with
  | idle => exact .refl k hc
  | stopped hp => exact hp.untouched hc (other rfl) nofun hm ht
  | gone hp =>
    refine hp.untouched hc (other rfl) (fun hi => ?_) hm ht
    obtain ⟨_, ⟨⟩, ho⟩ := hh hi
    exact ho
  | begun hp =>
    exact (Untouched.newSlot hc k).trans (hp.untouched hc.newSlot (other rfl) nofun hm fun e he =>
      ht e (List.mem_cons_of_mem _ he))

end Strides

end Trampoline
