import Trampoline.Proofs.History.Basic

/-!
What comes of the actions of descriptions: requests that are made, polled and dropped. No instruction is
collected by an action, and the handler has no part in it.
-/
namespace Trampoline

variable {I V X α : Type}

/-- What descriptions do, in the hands of the run or of others. -/
def Happening.isAction : Happening I V → Bool
  | requested _ => true
  | polled _ _ => true
  | issued _ _ => true
  | dropped _ => true
  | withdrawn _ _ => true
  | _ => false

namespace Store

variable {store : Store I V X} {e : Happening I V}

theorem mem_polling {r : Nat} (h : e ∈ store.polling r) :
    e = .polled r (store.poll r).1 ∨ ∃ slot, e = .issued slot r := by
  rw [polling] at h
  split at h
  · simp only [List.mem_cons, List.mem_map] at h
    obtain rfl | ⟨slot, _, rfl⟩ := h
    · exact .inl rfl
    · exact .inr ⟨slot, rfl⟩
  · cases h

theorem mem_dropping {r : Nat} (h : e ∈ store.dropping r) :
    e = .dropped r ∨ ∃ slot, e = .withdrawn slot r := by
  rw [dropping] at h
  split at h
  · simp only [List.mem_cons, List.mem_map] at h
    obtain rfl | ⟨slot, _, rfl⟩ := h
    · exact .inl rfl
    · exact .inr ⟨slot, rfl⟩
  · cases h

theorem isAction_of_mem_acting {action : Action I X} (h : e ∈ store.acting action) :
    e.isAction = true := by
  cases action with
  | request i =>
    obtain rfl := List.mem_singleton.mp h
    rfl
  | poll r => obtain rfl | ⟨slot, rfl⟩ := mem_polling h <;> rfl
  | drop r => obtain rfl | ⟨slot, rfl⟩ := mem_dropping h <;> rfl
  | look => cases h
  | share x => cases h

theorem isAction_of_mem_droppings {rs : List Nat} (h : e ∈ store.droppings rs) :
    e.isAction = true := by
  induction rs generalizing store with
  | nil => cases h
  | cons r rest ih =>
    rw [droppings, List.mem_append] at h
    obtain h | h := h
    · obtain rfl | ⟨slot, rfl⟩ := mem_dropping h <;> rfl
    · exact ih h

end Store

theorem Script.isAction_of_mem_happenings {k : Nat} {script : Script I V X α} {store : Store I V X}
    {e : Happening I V} (h : e ∈ script.happenings k store) : e.isAction = true := by
  induction script generalizing store with
  | done a => cases h
  | act action next ih =>
    rw [happenings, List.mem_append] at h
    obtain h | h := h
    · exact Store.isAction_of_mem_acting h
    · exact ih _ h

theorem Deed.isAction_of_mem_happenings {store : Store I V X} {deed : Deed I V X}
    {e : Happening I V} (h : e ∈ deed.happenings store) : e.isAction = true := by
  cases deed with
  | act slot action =>
    rw [happenings] at h
    split at h
    · exact Store.isAction_of_mem_acting h
    · cases h
  | newSlot => cases h
  | issue i => cases h
  | collect slot => cases h
  | putCell cell content => cases h

end Trampoline
