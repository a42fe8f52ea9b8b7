import Trampoline.Proofs.Answers.Steps

/-!
Others who use the store between two steps of a run.
-/
namespace Trampoline

variable {I V X T P S H : Type}

/-- What others do leaves the request to the run. They may drop it, and do as they like with all other
requests, those of the same description included. -/
def Deed.Spares (r : Nat) (origin : Issued I × Nat) : Deed I V X → Prop
  | .act _ (.poll s) => s ≠ r
  | .act _ _ => True
  | .newSlot => True
  | .issue _ => True
  | .collect slot => slot ≠ origin.2
  | .putCell cell _ => cell ≠ origin.1.cell

section Deeds

variable {r : Nat} {origin : Issued I × Nat} {history : List (Happening I V)} {store : Store I V X}
  {hand : Hand I}

theorem Watch.deed (h : Watch r origin history store hand) {deed : Deed I V X}
    (hd : deed.Spares r origin) :
    Watch r origin (history ++ deed.happenings store) (deed.apply store) hand := by
  cases deed with
  | act slot action =>
    by_cases hk : slot < store.slots.size
    · rw [Deed.happenings, if_pos hk, Deed.apply, if_pos hk]
      refine h.act hk action fun hp => ?_
      subst hp
      exact absurd rfl hd
    · rw [Deed.happenings, if_neg hk, Deed.apply, if_neg hk, List.append_nil]
      exact h
  | newSlot => exact h.frame_eq h.coherent.newSlot (Nat.le_refl _) (Store.view_newSlot store r) rfl
  | issue i =>
    exact h.frame_eq (h.coherent.issue i) (by simp [Deed.apply, Store.issue, Store.newCell])
      (Store.view_issue h.coherent i r) rfl
  | collect k =>
    refine h.frame (h.coherent.collect k)
      (Nat.le_of_eq (congrArg Array.size (store.cells_collect k)).symm) (fun hn => ?_)
      (fun v hv ho => ?_) rfl
    · change (store.collect k).2.view r = none at hn
      rwa [Store.view_collect, Option.map_eq_none_iff] at hn
    · change (store.collect k).2.view r = some v at hv
      rw [Store.view_collect, Option.map_eq_some_iff] at hv
      obtain ⟨w, hw, rfl⟩ := hv
      have hk : w.request.slot ≠ k := fun hk => hd (hk.symm.trans (congrArg Prod.snd ho))
      have hb : (w.request.slot != k) = true := bne_iff_ne.mpr hk
      rw [hb, Bool.and_true]
      exact hw
  | putCell c cell =>
    rw [Deed.happenings, List.append_nil]
    exact h.putCell (fun _ _ _ => hd) cell

private theorem private_of_origins {store' : Store I V X} {c : Nat} (h : store.Private c)
    (hz : store'.cells.size = store.cells.size) (ho : store'.origins = store.origins) :
    store'.Private c :=
  ⟨hz ▸ h.1, fun hr => h.2 (ho ▸ hr)⟩

/-- A new request has a new cell. -/
private theorem private_act {c : Nat} (h : store.Private c) (slot : Nat) (action : Action I X) :
    (store.act slot action).2.Private c := by
  cases action with
  | request i =>
    refine ⟨Nat.lt_of_lt_of_le h.1 (by simp [Store.act, Store.request, Store.issue, Store.newCell]),
      fun {s o} ho => ?_⟩
    change (store.request slot i).2.origins[s]? = some o at ho
    rw [Store.origins_request, Array.getElem?_push] at ho
    split at ho
    · cases ho
      exact Ne.symm (Nat.ne_of_lt h.1)
    · exact h.2 ho
  | poll s => exact private_of_origins h (store.size_cells_poll s) (store.origins_poll s)
  | drop s =>
    exact private_of_origins h (congrArg Array.size (store.cells_drop s)) (store.origins_drop s)
  | look => exact h
  | share x => exact h

private theorem private_deed {c : Nat} (h : store.Private c) (deed : Deed I V X) :
    (deed.apply store).Private c := by
  cases deed with
  | act slot action =>
    rw [Deed.apply]
    split
    · exact private_act h slot action
    · exact h
  | newSlot => exact h
  | issue i => exact ⟨Nat.lt_of_lt_of_le h.1 (by simp [Deed.apply, Store.issue, Store.newCell]), h.2⟩
  | collect k =>
    exact private_of_origins h (congrArg Array.size (store.cells_collect k)) (store.origins_collect k)
  | putCell d cell => exact private_of_origins h (by simp [Deed.apply, Store.putCell]) rfl

private theorem size_slots_deed (store : Store I V X) (deed : Deed I V X) :
    store.slots.size ≤ (deed.apply store).slots.size := by
  cases deed with
  | act slot action =>
    rw [Deed.apply]
    split
    · exact Nat.le_of_eq (store.size_slots_act slot action).symm
    · exact Nat.le_refl _
  | newSlot => simp [Deed.apply, Store.newSlot]
  | issue i => exact Nat.le_refl _
  | collect k => exact Nat.le_of_eq (store.size_slots_collect k).symm
  | putCell d cell => exact Nat.le_refl _

theorem Thunk.Sound.deed {thunk : Thunk V P S} (h : thunk.Sound store) (deed : Deed I V X) :
    thunk.Sound (deed.apply store) := by
  cases thunk with
  | answer cell next => exact private_deed h deed
  | resume slot rest => exact Nat.lt_of_lt_of_le h (size_slots_deed store deed)
  | _ => trivial

/-- Deeds of others keep any store coherent. -/
theorem Store.Coherent.deed (hc : store.Coherent) (deed : Deed I V X) :
    (deed.apply store).Coherent := by
  cases deed with
  | act slot action =>
    rw [Deed.apply]
    split
    · exact hc.act ‹_› action
    · exact hc
  | newSlot => exact hc.newSlot
  | issue i => exact hc.issue i
  | collect k => exact hc.collect k
  | putCell d cell => exact hc.putCell d cell

theorem Store.Coherent.deeds (hc : store.Coherent) (deeds : List (Deed I V X)) :
    (deeds.foldl Deed.apply store).Coherent := by
  induction deeds generalizing store with
  | nil => exact hc
  | cons deed rest ih => exact ih (hc.deed deed)

end Deeds

end Trampoline
