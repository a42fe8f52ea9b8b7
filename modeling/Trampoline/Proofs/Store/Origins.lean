import Trampoline.Proofs.Store.Fields

/-!
What was requested, and by whom, is known for ever: every operation leaves the origins of the requests
as they are, and only a new request adds one.
-/
namespace Trampoline

variable {I V X : Type}

/-- What a request is for, with the slot of the description that made it. -/
def Request.origin (q : Request I) : Issued I × Nat :=
  (q.issued, q.slot)

namespace Store

/-- The origins of all requests, in the order in which they were made. -/
def origins (store : Store I V X) : Array (Issued I × Nat) :=
  store.requests.map Request.origin

theorem origins_request (store : Store I V X) (k : Nat) (i : I) :
    (store.request k i).2.origins = store.origins.push (⟨i, store.cells.size⟩, k) :=
  Array.map_push

theorem origins_poll (store : Store I V X) (r : Nat) :
    (store.poll r).2.origins = store.origins := by
  suffices h : ∀ {answer store'}, Polling store r answer store' → store'.origins = store.origins from
    h (poll_cases store r)
  intro answer store' h
  cases h with
  | issued q i hq _ _ _ =>
    apply Array.ext_getElem?
    intro s
    rw [origins, origins, Array.getElem?_map, Array.getElem?_map, requests_occupy hq]
    split
    · subst s
      rw [hq]; rfl
    · rfl
  | _ => rfl

theorem origins_drop (store : Store I V X) (r : Nat) : (store.drop r).origins = store.origins := by
  apply Array.ext_getElem?
  intro s
  rw [origins, origins, Array.getElem?_map, Array.getElem?_map, requests_drop]
  split
  · cases store.requests[s]? <;> rfl
  · rfl

theorem origins_collect (store : Store I V X) (k : Nat) :
    (store.collect k).2.origins = store.origins := by
  unfold collect
  split <;> rfl

theorem origins_of_some {store : Store I V X} {r : Nat} {q : Request I}
    (h : store.requests[r]? = some q) : store.origins[r]? = some q.origin := by
  rw [origins, Array.getElem?_map, h]; rfl

theorem origins_act {store : Store I V X} {r : Nat} {origin : Issued I × Nat}
    (h : store.origins[r]? = some origin) (k : Nat) (action : Action I X) :
    (store.act k action).2.origins[r]? = some origin := by
  cases action with
  | request i =>
    change (store.request k i).2.origins[r]? = _
    have hr : r < store.origins.size := (Array.getElem?_eq_some_iff.mp h).1
    rw [origins_request, Array.getElem?_push, if_neg (Nat.ne_of_lt hr), h]
  | poll s =>
    change (store.poll s).2.origins[r]? = _
    rw [origins_poll, h]
  | drop s =>
    change (store.drop s).origins[r]? = _
    rw [origins_drop, h]
  | look => exact h
  | share x => exact h

theorem origins_run {α : Type} {store : Store I V X} {r : Nat} {origin : Issued I × Nat}
    (h : store.origins[r]? = some origin) (k : Nat) (script : Script I V X α) :
    (script.run k store).2.origins[r]? = some origin := by
  induction script generalizing store with
  | done a => exact h
  | act action next ih => exact ih _ (origins_act h k action)

end Store

end Trampoline
