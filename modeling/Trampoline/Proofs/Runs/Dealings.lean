import Trampoline.Proofs.History.Actions
import Trampoline.Proofs.History.Alone
import Trampoline.Proofs.Runs.Sound

/-!
What passes between a run and its handler: calls, answers and refusals, told without the cells they go
through. What descriptions do among themselves is no part of it.
-/
namespace Trampoline

variable {I V X α T P S H : Type}

/-- A call of the handler, or what came of one. -/
inductive Dealing (I V : Type) where
  | call (instruction : I)
  | answer (instruction : I) (value : V)
  | refusal (instruction : I) (failure : Failure)

def Dealing.call? : Dealing I V → Option I
  | call i => some i
  | answer _ _ => none
  | refusal _ _ => none

namespace Happening

def dealing? : Happening I V → Option (Dealing I V)
  | called i => some (.call i.instruction)
  | answered i value => some (.answer i.instruction value)
  | refused i failure => some (.refusal i.instruction failure)
  | _ => none

/-- The instruction that the handler is called for is part of the dealing. -/
theorem call?_eq_none {e : Happening I V} (h : e.dealing? = none) : e.call? = none := by
  cases e with
  | called i => cases h
  | _ => rfl

/-- What descriptions do among themselves is no part of it. -/
theorem dealing?_of_isAction {e : Happening I V} (h : e.isAction = true) : e.dealing? = none := by
  cases e with
  | called i => cases h
  | answered i value => cases h
  | refused i failure => cases h
  | _ => rfl

end Happening

open Happening

namespace Language

variable (l : Language I V X T P S) {store : Store I V X} {e : Happening I V}

theorem dealing?_of_mem_resumption {k : Nat} {s : S} (h : e ∈ l.resumption k s store) :
    e.dealing? = none := by
  unfold resumption at h
  dsimp only at h
  rw [List.mem_append] at h
  obtain h | h := h
  · exact dealing?_of_isAction (Script.isAction_of_mem_happenings h)
  · split at h
    · obtain rfl := List.mem_singleton.mp h
      rfl
    · obtain rfl := List.mem_singleton.mp h
      rfl
    · split at h
      · obtain rfl := List.mem_singleton.mp h
        rfl
      · obtain rfl | h := List.mem_cons.mp h
        · rfl
        · exact dealing?_of_isAction (Store.isAction_of_mem_droppings h)

theorem dealing?_of_mem_forcing {thunk : Thunk V P S} (h : e ∈ l.forcing thunk store) :
    e.dealing? = none := by
  cases thunk with
  | build body => cases h
  | fail failure => cases h
  | answer cell next => cases h
  | describe start =>
    obtain rfl | h := List.mem_cons.mp h
    · rfl
    · exact l.dealing?_of_mem_resumption h
  | resume slot rest => exact l.dealing?_of_mem_resumption h

theorem dealing?_of_mem_discarding {thunk : Thunk V P S} (h : e ∈ l.discarding thunk store) :
    e.dealing? = none := by
  cases thunk with
  | resume slot rest => exact dealing?_of_isAction (Store.isAction_of_mem_droppings h)
  | build body => cases h
  | fail failure => cases h
  | answer cell next => cases h
  | describe start => cases h

theorem dealings_forcing (thunk : Thunk V P S) (store : Store I V X) :
    (l.forcing thunk store).filterMap dealing? = [] :=
  List.filterMap_eq_nil_iff.mpr fun _ h => l.dealing?_of_mem_forcing h

theorem dealings_discarding (thunk : Thunk V P S) (store : Store I V X) :
    (l.discarding thunk store).filterMap dealing? = [] :=
  List.filterMap_eq_nil_iff.mpr fun _ h => l.dealing?_of_mem_discarding h

theorem calls_forcing (thunk : Thunk V P S) (store : Store I V X) :
    (l.forcing thunk store).filterMap call? = [] :=
  List.filterMap_eq_nil_iff.mpr fun _ h => call?_eq_none (l.dealing?_of_mem_forcing h)

theorem calls_discarding (thunk : Thunk V P S) (store : Store I V X) :
    (l.discarding thunk store).filterMap call? = [] :=
  List.filterMap_eq_nil_iff.mpr fun _ h => call?_eq_none (l.dealing?_of_mem_discarding h)

/-- A poll of a call is no call of its own. -/
theorem calls_dispatching (handler : Handler I V H) (issued : Issued I) (next : Thunk V P S)
    (polls : Nat) (state : H) (store : Store I V X) :
    (l.dispatching handler issued next polls state store).filterMap call? = [] := by
  unfold dispatching
  dsimp only
  split
  · rfl
  · exact (List.filterMap_cons_none rfl).trans (l.calls_discarding _ _)
  · rw [List.filterMap_cons_none rfl]
    split
    · exact l.calls_forcing _ _
    · exact l.calls_discarding _ _

end Language

/-- All that has passed between a run and its handler. -/
def Scene.dealings (scene : Scene I V X T P S H) : List (Dealing I V) :=
  scene.history.filterMap dealing?

/-- The calls of the handler are part of the dealings. -/
theorem Scene.calls_eq_dealings (scene : Scene I V X T P S H) :
    scene.calls = scene.dealings.filterMap Dealing.call? := by
  rw [calls, dealings, List.filterMap_filterMap]
  congr 1
  funext e
  cases e <;> rfl

end Trampoline
