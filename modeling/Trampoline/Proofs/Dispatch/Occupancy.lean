import Trampoline.Proofs.Dispatch.Passage
import Trampoline.Proofs.Runs.Strides
import Trampoline.Proofs.Store.Frames

/-!
Who is in a slot. What has happened tells at any time which request has its instruction there: the one
that was issued last, unless it was dropped or collected since. A request is issued only where nobody
else is, and what is collected is the instruction of the one that is there.
-/
namespace Trampoline

variable {I V X T P S H : Type}

namespace Happening

/-- Who is in slot number `k` after something has happened. -/
def occupies (k : Nat) (occupant : Option Nat) : Happening I V → Option Nat
  | issued slot r => if slot = k then some r else occupant
  | dropped r => if occupant = some r then none else occupant
  | collected slot _ _ => if slot = k then none else occupant
  | _ => occupant

/-- The request that is in slot number `k`, which was free in the beginning. -/
def occupant (k : Nat) (history : List (Happening I V)) : Option Nat :=
  history.foldl (occupies k) none

/-- Whether somebody may come into slot number `k`, or leave it. -/
def stirs (k : Nat) : Happening I V → Bool
  | issued slot _ => slot == k
  | dropped _ => true
  | collected slot _ _ => slot == k
  | _ => false

theorem occupant_concat (k : Nat) (history : List (Happening I V)) (e : Happening I V) :
    occupant k (history ++ [e]) = occupies k (occupant k history) e := by
  rw [occupant, List.foldl_append]
  rfl

theorem occupies_of_not_stirs {k : Nat} {e : Happening I V} (h : e.stirs k = false)
    (occupant : Option Nat) : occupies k occupant e = occupant := by
  cases e with
  | issued slot r => exact if_neg (beq_eq_false_iff_ne.mp h)
  | collected slot suspended found => exact if_neg (beq_eq_false_iff_ne.mp h)
  | dropped r => cases h
  | _ => rfl

end Happening

open Happening (occupies occupant stirs occupant_concat split_concat)

namespace Store

/-- Request number `r` has its instruction in slot number `k`. -/
def Occupies (store : Store I V X) (k r : Nat) : Prop :=
  ∃ v, store.view r = some v ∧ v.held = true ∧ v.request.slot = k

/-- What is found in slot number `k`, given who is there. -/
inductive Finds (store : Store I V X) (k : Nat) : Option Nat → Option (Issued I) → Prop
  | nobody : Finds store k none none
  | occupant {r : Nat} {i : Issued I} : store.origins[r]? = some (i, k) →
      Finds store k (some r) (some i)

/-- Every request has kept its instruction and its slot. -/
def Recalls (store store' : Store I V X) : Prop :=
  ∀ {r : Nat} {o : Issued I × Nat}, store.origins[r]? = some o → store'.origins[r]? = some o

variable {store store' : Store I V X} {k : Nat}

theorem Finds.recall {who : Option Nat} {found : Option (Issued I)} (h : store.Finds k who found)
    (hr : store.Recalls store') : store'.Finds k who found := by
  cases h with
  | nobody => exact .nobody
  | occupant ho => exact .occupant (hr ho)

theorem recalls_deed (store : Store I V X) (deed : Deed I V X) :
    store.Recalls (deed.apply store) := by
  intro r o ho
  cases deed with
  | act slot action =>
    rw [Deed.apply]
    split
    · exact origins_act ho slot action
    · exact ho
  | collect j =>
    rw [Deed.apply, origins_collect]
    exact ho
  | newSlot => exact ho
  | issue i => exact ho
  | putCell c cell => exact ho

theorem not_occupies_of_free (hc : store.Coherent) (hf : (store.slotAt k).pending = none) (r : Nat) :
    ¬ store.Occupies k r := by
  rintro ⟨v, hv, hh, rfl⟩
  obtain ⟨n, hp⟩ := (held_iff hc hv).mp hh
  rw [hf] at hp
  cases hp

theorem occupies_putCell (hc : store.Coherent) (c : Nat) (cell : Cell V) (r : Nat) :
    (store.putCell c cell).Occupies k r ↔ store.Occupies k r := by
  rw [Occupies, Occupies, view_putCell hc]
  cases store.view r with
  | none => rfl
  | some v =>
    rw [Option.map_some]
    split <;> simp

theorem occupies_request (hc : store.Coherent) (j : Nat) (i : I) (r : Nat) :
    (store.request j i).2.Occupies k r ↔ store.Occupies k r := by
  by_cases hr : r = store.requests.size
  · subst hr
    rw [Occupies, Occupies, view_request_self, view_eq_none_iff.mpr (Nat.le_refl _)]
    simp
  · rw [Occupies, Occupies, view_request_of_ne hc j i hr]

section Occupying

variable {r : Nat} {q : Request I} {i : Issued I} (hq : store.requests[r]? = some q)
  (hd : q.dropped = false) (hi : q.instruction = some i)
  (hf : (store.slotAt q.slot).pending = none)

include hq hd hi hf

theorem occupies_occupy (hc : store.Coherent) (s : Nat) :
    (store.occupy r q i).Occupies k s ↔ if q.slot = k then s = r else store.Occupies k s := by
  by_cases hs : s = r
  · subst hs
    obtain ⟨hw, rfl⟩ := hc.of_instruction hq hd hi
    have hn : ¬ store.Occupies k s := by
      rintro ⟨v, hv, hh, _⟩
      cases (view_eq hq).symm.trans hv
      rw [holding_of_waiting _ hw] at hh
      cases hh
    rw [Occupies, view_occupy_self hc hq hd]
    split <;> simp_all
  · rw [Occupies, view_polling_of_ne hc (.issued q i hq hd hi hf) hs, ← Occupies]
    split
    · rename_i hk
      exact iff_of_false (not_occupies_of_free hc (hk ▸ hf) s) hs
    · rfl

theorem recalls_occupy : store.Recalls (store.occupy r q i) := by
  intro s o ho
  have hp := store.origins_poll r
  rw [poll_of_free hq hd hi hf] at hp
  exact hp ▸ ho

end Occupying

theorem occupies_drop (hc : store.Coherent) (r s : Nat) :
    (store.drop r).Occupies k s ↔ s ≠ r ∧ store.Occupies k s := by
  by_cases hs : s = r
  · subst hs
    simp only [ne_eq, not_true_eq_false, false_and, iff_false]
    rintro ⟨v, hv, hh, _⟩
    cases hw : store.view s with
    | none =>
      have hq : store.requests[s]? = none := Array.getElem?_eq_none (view_eq_none_iff.mp hw)
      rw [drop_of_none hq, hw] at hv
      cases hv
    | some w =>
      rw [view_drop_self hw] at hv
      cases hv
      cases hh
  · rw [Occupies, Occupies, view_drop_of_ne hc hs]
    exact (and_iff_right hs).symm

theorem occupies_collect (store : Store I V X) (j r : Nat) :
    (store.collect j).2.Occupies k r ↔ j ≠ k ∧ store.Occupies k r := by
  rw [Occupies, Occupies, view_collect]
  cases store.view r with
  | none => simp
  | some v =>
    simp only [Option.map_some, Option.some.injEq, exists_eq_left', Bool.and_eq_true, bne_iff_ne]
    constructor
    · rintro ⟨⟨hh, hj⟩, rfl⟩
      exact ⟨Ne.symm hj, hh, rfl⟩
    · rintro ⟨hj, hh, rfl⟩
      exact ⟨⟨hh, Ne.symm hj⟩, rfl⟩

end Store

/-- What has happened tells who is in slot number `k`, and has told so at every time. -/
structure Occupancy (k : Nat) (history : List (Happening I V)) (store : Store I V X) : Prop where
  coherent : store.Coherent
  occupant : ∀ r, occupant k history = some r ↔ store.Occupies k r
  free : ∀ before after r, history = before ++ .issued k r :: after →
    Happening.occupant k before = none ∧ ∃ earlier, before = earlier ++ [.polled r none]
  found : ∀ before after suspended found, history = before ++ .collected k suspended found :: after →
    store.Finds k (Happening.occupant k before) found

namespace Occupancy

variable {k : Nat} {history events : List (Happening I V)} {store store' : Store I V X}
  {e : Happening I V}

/-- A slot that is yet to be made. -/
theorem start (hc : store.Coherent) (hk : store.slots.size ≤ k) :
    Occupancy k ([] : List (Happening I V)) store where
  coherent := hc
  occupant r := by
    refine ⟨nofun, ?_⟩
    rintro ⟨v, hv, _, rfl⟩
    exact absurd (hc.slot_lt (Store.request_of_view hv)) (Nat.not_lt.mpr hk)
  free _ _ _ h := by simp at h
  found _ _ _ _ h := by simp at h

/-- One more thing happens. -/
theorem concat (h : Occupancy k history store) (hc : store'.Coherent) (hr : store.Recalls store')
    (ho : ∀ r, occupies k (Happening.occupant k history) e = some r ↔ store'.Occupies k r)
    (hi : ∀ r, e = .issued k r →
      Happening.occupant k history = none ∧ ∃ earlier, history = earlier ++ [.polled r none])
    (hf : ∀ suspended found, e = .collected k suspended found →
      store.Finds k (Happening.occupant k history) found) :
    Occupancy k (history ++ [e]) store' where
  coherent := hc
  occupant := by rwa [occupant_concat]
  free _ _ _ hs := by
    obtain ⟨_, hb⟩ | ⟨rfl, rfl⟩ := split_concat hs
    · exact h.free _ _ _ hb
    · exact hi _ rfl
  found _ _ _ _ hs := by
    obtain ⟨_, hb⟩ | ⟨rfl, rfl⟩ := split_concat hs
    · exact (h.found _ _ _ _ hb).recall hr
    · exact (hf _ _ rfl).recall hr

/-- Nobody comes or goes. -/
theorem still (h : Occupancy k history store) (hc : store'.Coherent) (hr : store.Recalls store')
    (ho : ∀ r, store'.Occupies k r ↔ store.Occupies k r) : Occupancy k history store' :=
  ⟨hc, fun r => (h.occupant r).trans (ho r).symm, h.free,
    fun _ _ _ _ hs => (h.found _ _ _ _ hs).recall hr⟩

theorem quiet (h : Occupancy k history store) (he : e.stirs k = false) :
    Occupancy k (history ++ [e]) store := by
  refine h.concat h.coherent id (fun r => ?_) ?_ ?_
  · rw [Happening.occupies_of_not_stirs he]
    exact h.occupant r
  · rintro r rfl
    simp [stirs] at he
  · rintro suspended found rfl
    simp [stirs] at he

theorem occupant_eq_none (h : Occupancy k history store) (hf : (store.slotAt k).pending = none) :
    Happening.occupant k history = none :=
  Option.eq_none_iff_forall_ne_some.mpr fun r hr =>
    Store.not_occupies_of_free h.coherent hf r ((h.occupant r).mp hr)

theorem finds (h : Occupancy k history store) :
    store.Finds k (Happening.occupant k history) (store.collect k).1 := by
  unfold Store.collect
  cases hp : (store.slotAt k).pending with
  | none =>
    rw [h.occupant_eq_none hp]
    exact .nobody
  | some entry =>
    obtain ⟨r, v, hv, hh, hk, hi⟩ := Store.exists_held h.coherent hp
    rw [(h.occupant r).mpr ⟨v, hv, hh, hk⟩]
    refine .occupant ((Store.origins_of_some (Store.request_of_view hv)).trans ?_)
    rw [Request.origin, hk, hi]

/-- A request stays in the slot until it is dropped or collected. Others may be polled and dropped
meanwhile. -/
theorem stays (h : Occupancy k history store) {before meanwhile after : List (Happening I V)} {r : Nat}
    (hs : history = before ++ (meanwhile ++ after)) (hr : Happening.occupant k before = some r)
    (hd : .dropped r ∉ meanwhile) (hc : ∀ suspended found, .collected k suspended found ∉ meanwhile) :
    Happening.occupant k (before ++ meanwhile) = some r := by
  induction meanwhile generalizing before with
  | nil => rwa [List.append_nil]
  | cons e rest ih =>
    have hn : Happening.occupant k (before ++ [e]) = some r := by
      rw [occupant_concat, hr]
      cases e with
      | issued slot s =>
        refine if_neg fun hk => ?_
        subst hk
        rw [(h.free _ _ _ hs).1] at hr
        cases hr
      | dropped s =>
        refine if_neg fun hs => ?_
        cases hs
        exact hd List.mem_cons_self
      | collected slot suspended found =>
        refine if_neg fun hk => ?_
        subst hk
        exact hc _ _ List.mem_cons_self
      | _ => rfl
    rw [List.append_cons]
    refine ih (hs.trans (List.append_cons ..)) hn (fun hm => hd (List.mem_cons_of_mem e hm)) ?_
    exact fun suspended found hm => hc suspended found (List.mem_cons_of_mem e hm)

theorem putCell (h : Occupancy k history store) (c : Nat) (cell : Cell V) :
    Occupancy k history (store.putCell c cell) :=
  h.still (h.coherent.putCell c cell) id (Store.occupies_putCell h.coherent c cell)

/-! ### Polls and drops -/

/-- A request that gets the slot finds nobody there. -/
private theorem issued (h : Occupancy k history store) {r : Nat} {q : Request I} {i : Issued I}
    (hq : store.requests[r]? = some q) (hd : q.dropped = false) (hi : q.instruction = some i)
    (hf : (store.slotAt q.slot).pending = none) :
    Occupancy k (history ++ [.polled r none] ++ [.issued q.slot r]) (store.occupy r q i) := by
  have hpolled : Occupancy k (history ++ [.polled r none]) store := h.quiet rfl
  have hc : (store.occupy r q i).Coherent := h.coherent.polling (.issued q i hq hd hi hf)
  refine hpolled.concat hc (Store.recalls_occupy hq hd hi hf) (fun s => ?_) ?_ nofun
  · rw [Store.occupies_occupy hq hd hi hf h.coherent, occupies]
    split
    · exact ⟨fun he => (Option.some.inj he).symm, fun he => congrArg some he.symm⟩
    · exact hpolled.occupant s
  · intro s hs
    cases hs
    exact ⟨hpolled.occupant_eq_none hf, history, rfl⟩

theorem poll (h : Occupancy k history store) (r : Nat) :
    Occupancy k (history ++ store.polling r) (store.poll r).2 := by
  have ht := Store.told_poll store r
  generalize store.polling r = events, (store.poll r).2 = store' at ht ⊢
  cases ht with
  | gone => rwa [List.append_nil]
  | waits => exact h.quiet rfl
  | read q answer cell => exact (h.putCell q.issued.cell cell).quiet rfl
  | issued q i hq hd hi hf => exact List.append_cons .. ▸ h.issued hq hd hi hf

theorem drop (h : Occupancy k history store) (r : Nat) :
    Occupancy k (history ++ store.dropping r) (store.drop r) := by
  have hc := h.coherent.drop r
  have hr : store.Recalls (store.drop r) := fun ho => by rwa [store.origins_drop r]
  rw [Store.dropping]
  split
  · have hd : Occupancy k (history ++ [.dropped r]) (store.drop r) := by
      refine h.concat hc hr (fun s => ?_) (fun _ he => by cases he) (fun _ _ he => by cases he)
      rw [Store.occupies_drop h.coherent, ← h.occupant, occupies]
      by_cases hs : Happening.occupant k history = some r
      · rw [if_pos hs, hs]
        simpa using fun hn he => hn he.symm
      · rw [if_neg hs]
        refine ⟨fun ho => ⟨?_, ho⟩, And.right⟩
        rintro rfl
        exact hs ho
    cases store.withdraws? r with
    | none => exact hd
    | some slot =>
      have hw : Occupancy k (history ++ [.dropped r] ++ [.withdrawn slot r]) (store.drop r) :=
        hd.quiet rfl
      exact List.append_cons .. ▸ hw
  · rename_i ha
    rw [List.append_nil]
    refine h.still hc hr fun s => ?_
    rw [Store.occupies_drop h.coherent]
    refine and_iff_right_of_imp ?_
    rintro ⟨v, hv, hh, _⟩ rfl
    obtain ⟨t, ht⟩ := Store.standing_of_held hv hh
    exact ha (Store.alive_of_standing (Store.request_of_view hv) (by simp [ht]))

theorem act (h : Occupancy k history store) {j : Nat} (hj : j < store.slots.size)
    (action : Action I X) : Occupancy k (history ++ store.acting action) (store.act j action).2 := by
  cases action with
  | request i =>
    have h' : Occupancy k history (store.request j i).2 :=
      h.still (h.coherent.request hj i) (fun ho => Store.origins_act ho j (.request i))
        (Store.occupies_request h.coherent j i)
    exact h'.quiet rfl
  | poll r => exact h.poll r
  | drop r => exact h.drop r
  | look =>
    rw [Store.acting, List.append_nil]
    exact h
  | share x =>
    rw [Store.acting, List.append_nil]
    exact h.still (h.coherent.share x) id fun _ => Iff.rfl

theorem collect (h : Occupancy k history store) (j : Nat) (suspended : Bool) :
    Occupancy k (history ++ [.collected j suspended (store.collect j).1]) (store.collect j).2 := by
  refine h.concat (h.coherent.collect j) (fun ho => by rwa [store.origins_collect j]) (fun r => ?_)
    nofun fun suspended found he => ?_
  · rw [Store.occupies_collect, ← h.occupant, occupies]
    by_cases hj : j = k <;> simp [hj]
  · cases he
    exact h.finds

theorem issue (h : Occupancy k history store) (i : I) : Occupancy k history (store.issue i).2 :=
  h.still (h.coherent.issue i) id fun r => by
    rw [Store.Occupies, Store.Occupies, Store.view_issue h.coherent]

theorem newSlot (h : Occupancy k history store) : Occupancy k history store.newSlot.2 :=
  h.still h.coherent.newSlot id fun r => by
    rw [Store.Occupies, Store.Occupies, Store.view_newSlot]

/-- No stride goes by without being told of, and nobody else collects from the slot. -/
theorem steady (k : Nat) :
    Steady (V := V) (X := X) (fun deed => deed ≠ .collect k) fun history store (_ : Hand I) =>
      Occupancy k history store where
  stop := id
  stride h hs := by
    cases hs with
    | act j action hj => exact h.act hj action
    | opened => exact h.newSlot.quiet rfl
    | collect j suspended => exact h.collect j suspended
    | issue i => exact List.append_nil _ ▸ h.issue i
    | read cell _ => exact List.append_nil _ ▸ h.putCell _ cell
    | called i => exact h.quiet rfl
    | leave i cell => exact List.append_nil _ ▸ h.putCell _ cell
    | answered i value cell => exact (h.putCell _ cell).quiet rfl
    | rejected i value => exact h.quiet rfl
    | refused i failure => exact h.quiet rfl
    | halt => exact List.append_nil _ ▸ h
  deed deed ha h := by
    cases deed with
    | act j action =>
      rw [Deed.happenings, Deed.apply]
      split
      · exact h.act ‹_› action
      · exact List.append_nil _ ▸ h
    | newSlot => exact List.append_nil _ ▸ h.newSlot
    | issue i => exact List.append_nil _ ▸ h.issue i
    | putCell c cell => exact List.append_nil _ ▸ h.putCell c cell
    | collect j =>
      have hj : j ≠ k := fun hj => ha (hj ▸ rfl)
      refine List.append_nil _ ▸ h.still (h.coherent.collect j) (Store.recalls_deed _ (.collect j))
        fun r => ?_
      exact (Store.occupies_collect _ j r).trans (and_iff_right hj)

end Occupancy

end Trampoline
