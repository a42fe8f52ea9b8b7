import Trampoline.Proofs.Sequential.Performance
import Trampoline.Proofs.Store.Frames

/-!
Descriptions that carry out one instruction after the other. Each resumption ends with a request that
holds the slot, and the next one begins with the answer.
-/
namespace Trampoline

variable {I V X T P S α β : Type}

open Happening (Untroubled untroubled_append)

theorem Script.happenings_bind (k : Nat) (script : Script I V X α) (f : α → Script I V X β)
    (store : Store I V X) :
    (script.bind f).happenings k store =
      script.happenings k store ++
        (f (script.run k store).1).happenings k (script.run k store).2 := by
  induction script generalizing store with
  | done a => rfl
  | act action next ih =>
    rw [happenings, List.append_assoc]
    exact congrArg (_ ++ ·) (ih _ _)

namespace Script

variable {k r : Nat} {i : I} {store : Store I V X}

theorem run_request (next : Nat → Script I V X α) :
    (act (.request i) next).run k store =
      (next (store.request k i).1).run k (store.request k i).2 :=
  rfl

theorem happenings_request (next : Nat → Script I V X α) :
    (act (.request i) next).happenings k store =
      .requested store.requests.size ::
        (next (store.request k i).1).happenings k (store.request k i).2 :=
  rfl

theorem run_poll {answer : Option (Except CellError V)} (h : (store.poll r).1 = answer)
    (next : Option (Except CellError V) → Script I V X α) :
    (act (.poll r) next).run k store = (next answer).run k (store.poll r).2 := by
  subst h
  rfl

theorem happenings_poll {answer : Option (Except CellError V)} (h : (store.poll r).1 = answer)
    (next : Option (Except CellError V) → Script I V X α) :
    (act (.poll r) next).happenings k store =
      store.polling r ++ (next answer).happenings k (store.poll r).2 := by
  subst h
  rfl

theorem happenings_drop (next : Unit → Script I V X α) :
    (act (.drop r) next).happenings k store =
      store.dropping r ++ (next ()).happenings k (store.drop r) :=
  rfl

end Script

/-- A poll that gives no error. -/
theorem Store.untroubled_polling {store : Store I V X} {r : Nat}
    (h : ∀ e, (store.poll r).1 ≠ some (.error e)) : Untroubled (store.polling r) := by
  intro s e hm
  rw [polling] at hm
  split at hm
  · simp only [List.mem_cons, Happening.polled.injEq, List.mem_map, reduceCtorEq, and_false, exists_false,
      or_false] at hm
    exact h e hm.2.symm
  · cases hm

namespace Language

variable {l : Language I V X T P S} {k : Nat} {store : Store I V X} {rest : S}

/-- What is built in the end of a resumption. -/
def concluded (l : Language I V X T P S) (slot : Nat) (resumed : Progress T S × Store I V X) :
    Except BuildError (Node I T (Thunk V P S)) × Store I V X :=
  let (found, store) := resumed.2.collect slot
  match resumed.1 with
  | .finished value => (.ok (.result value), store)
  | .failed failure => (.error (.described failure), store)
  | .suspended rest =>
    match found with
    | some issued => (.ok (.await issued (.resume slot rest)), store)
    | none => (.error .foreignSuspension, store.dropAll (l.owned rest))

theorem resumeAt_eq (l : Language I V X T P S) (k : Nat) (rest : S) (store : Store I V X) :
    l.resumeAt k rest store = l.concluded k ((l.resume rest).run k store) :=
  rfl

theorem untroubled_resumption (h : Untroubled ((l.resume rest).happenings k store)) :
    Untroubled (l.resumption k rest store) := by
  have last (suspended : Bool) (found : Option (Issued I)) :
      Untroubled (V := V) [.collected k suspended found] := by
    simp [Untroubled]
  refine untroubled_append.mpr ⟨h, ?_⟩
  split
  · exact last _ _
  · exact last _ _
  · split
    · exact last _ _
    · rw [← List.singleton_append]
      exact untroubled_append.mpr ⟨last _ _, Store.untroubled_droppings _ _⟩

/-- A resumption that ends in a suspension with a request in the slot. It is followed by the next one,
which finds the answer to this request and everything else as it was left. -/
theorem follows_suspended {r : Nat} {i : I} {next : V → Sequential I V T}
    (hc : store.Coherent) (hh : store.Holds k r i)
    (hf : ∀ value (store' : Store I V X), store'.Coherent → store'.slots.size = store.slots.size →
      store'.taken k = false → store'.Answered k r value →
      (∀ s, s ≠ r → store'.view s = store.view s) →
      Untroubled (l.resumption k rest store') ∧ l.Follows (next value) (l.resumeAt k rest store')) :
    l.Follows (.perform i next) (l.concluded k (.suspended rest, store)) := by
  obtain ⟨issued, he, hi, hb, hcell, hput⟩ := Store.collect_of_holds hc hh
  have hs : l.concluded k (.suspended rest, store) =
      (.ok (.await issued (.resume k rest)), (store.collect k).2) := by
    simp only [concluded, he]
  rw [hs]
  refine ⟨issued, .resume k rest, rfl, hi, hb, hcell, fun value => ?_⟩
  obtain ⟨hc', hz, ht, ha, hv⟩ := hput value
  exact hf value _ hc' hz ht ha hv

end Language

end Trampoline
