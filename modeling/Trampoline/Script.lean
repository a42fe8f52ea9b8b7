import Trampoline.Store

/-!
What a description may do while it is resumed. It makes, polls and drops requests and uses the value
that all descriptions share; nothing else of the store is within its reach. A script is the tree of
these actions, each with all the ways to go on that its replies allow.
-/
namespace Trampoline

/-- One action of a description. -/
inductive Action (I X : Type) where
  /-- Makes a request. -/
  | request (instruction : I)
  /-- Polls a request. -/
  | poll (request : Nat)
  /-- Drops a request. -/
  | drop (request : Nat)
  /-- Looks at the shared value. -/
  | look
  /-- Replaces the shared value. -/
  | share (value : X)

/-- What an action is answered with: the number of the new request, the answer of a polled request
once there is one, or the shared value. -/
@[reducible] def Action.Reply {I X : Type} (V : Type) : Action I X → Type
  | .request _ => Nat
  | .poll _ => Option (Except CellError V)
  | .drop _ => Unit
  | .look => X
  | .share _ => Unit

/-- Carries out an action of the description that owns the given slot. -/
def Store.act {I V X : Type} (slot : Nat) :
    (action : Action I X) → Store I V X → action.Reply V × Store I V X
  | .request instruction, store => store.request slot instruction
  | .poll r, store => store.poll r
  | .drop r, store => ((), store.drop r)
  | .look, store => (store.shared, store)
  | .share value, store => ((), { store with shared := value })

/-- The actions of one resumption, in the order in which they are taken. -/
inductive Script (I V X α : Type) where
  | done (a : α)
  | act (action : Action I X) (next : action.Reply V → Script I V X α)

namespace Script

variable {I V X α β : Type}

/-- Goes on with a second script from the result of the first. -/
def bind (script : Script I V X α) (next : α → Script I V X β) : Script I V X β :=
  match script with
  | done a => next a
  | act action rest => act action fun reply => (rest reply).bind next

instance : Monad (Script I V X) where
  pure := done
  bind := bind

def ofAction (action : Action I X) : Script I V X (action.Reply V) :=
  act action done

def request (instruction : I) : Script I V X Nat :=
  ofAction (.request instruction)

def poll (r : Nat) : Script I V X (Option (Except CellError V)) :=
  ofAction (.poll r)

def drop (r : Nat) : Script I V X Unit :=
  ofAction (.drop r)

def dropAll : List Nat → Script I V X Unit
  | [] => done ()
  | r :: rest => (drop r).bind fun _ => dropAll rest

def look : Script I V X X :=
  ofAction .look

def share (value : X) : Script I V X Unit :=
  ofAction (.share value)

/-- Carries out a script for the description that owns the given slot. -/
def run (slot : Nat) : Script I V X α → Store I V X → α × Store I V X
  | done a, store => (a, store)
  | act action next, store =>
    let (reply, store) := store.act slot action
    (next reply).run slot store

theorem run_bind (slot : Nat) (script : Script I V X α) (f : α → Script I V X β)
    (store : Store I V X) :
    (script.bind f).run slot store =
      (f (script.run slot store).1).run slot (script.run slot store).2 := by
  induction script generalizing store with
  | done a => rfl
  | act action next ih => exact ih _ _

end Script

end Trampoline
