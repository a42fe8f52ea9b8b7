import Mathlib.Logic.ExistsUnique
import Trampoline.Store

/-!
Where the instructions are that one description has requested. Each is in exactly one place: still with
its request, in the slot, collected, or given up; and it goes from one place to another only by a poll
of its own request, by a collection, or by the drop of its own request.
-/
namespace Trampoline

/-- What can happen to the requests of one description. -/
inductive Move (I : Type) where
  | request (instruction : I)
  | poll (r : Nat)
  | drop (r : Nat)
  /-- The end of a resumption. -/
  | collect

/-- The instruction that a move requests. -/
def Move.instruction? {I : Type} : Move I → Option I
  | request i => some i
  | poll _ => none
  | drop _ => none
  | collect => none

/-- Where an instruction can be. -/
inductive Place where
  | request
  | slot
  | collected
  | discarded
  deriving DecidableEq

/-- The moves that take the instruction of request number `r` from one place to another. -/
inductive Move.Carries {I : Type} (r : Nat) : Move I → Place → Place → Prop
  | issue : Carries r (.poll r) .request .slot
  | collect : Carries r .collect .slot .collected
  | abandon : Carries r (.drop r) .request .discarded
  | withdraw : Carries r (.drop r) .slot .discarded

/-- The requests of one description, and what was collected of them so far. -/
structure Traffic (I V X : Type) where
  store : Store I V X
  collected : List (Issued I)

namespace Traffic

variable {I V X : Type}

/-- A description that has requested nothing yet. Its slot has number 0. -/
def start (shared : X) : Traffic I V X :=
  ⟨(Store.fresh shared).newSlot.2, []⟩

def move (t : Traffic I V X) : Move I → Traffic I V X
  | .request i => { t with store := (t.store.request 0 i).2 }
  | .poll r => { t with store := (t.store.poll r).2 }
  | .drop r => { t with store := t.store.drop r }
  | .collect => ⟨(t.store.collect 0).2, t.collected ++ (t.store.collect 0).1.toList⟩

/-- What any number of moves lead to. -/
def after (shared : X) (moves : List (Move I)) : Traffic I V X :=
  moves.foldl move (start shared)

/-- Whether the instruction of a request is in a place. -/
def Lies (t : Traffic I V X) (q : Request I) : Place → Prop
  | .request => q.dropped = false ∧ q.instruction = some q.issued
  | .slot => ∃ n, (t.store.slotAt 0).pending = some (n, q.issued)
  | .collected => q.issued ∈ t.collected
  | .discarded => q.dropped = true ∧ q.issued ∉ t.collected

/-- What holds of the requests of a description at any time. -/
structure Orderly (t : Traffic I V X) : Prop where
  /-- A request that was not dropped has an instruction exactly if it has no ticket, and it has no other
  than its own. -/
  kept_iff : ∀ {r : Nat} {q : Request I} {issued : Issued I}, t.store.requests[r]? = some q →
    q.dropped = false → (q.instruction = some issued ↔ q.ticket = none ∧ q.issued = issued)
  ticket_le : ∀ {r n : Nat} {q : Request I}, t.store.requests[r]? = some q →
    q.ticket = some n → n ≤ (t.store.slotAt 0).issued
  ticket_inj : ∀ {r s n : Nat} {q p : Request I}, t.store.requests[r]? = some q →
    t.store.requests[s]? = some p → q.ticket = some n → p.ticket = some n → r = s
  /-- What is in the slot has the last ticket, and belongs to the one request with that ticket, which was
  not dropped. -/
  holder : ∀ {n : Nat} {issued : Issued I}, (t.store.slotAt 0).pending = some (n, issued) →
    n = (t.store.slotAt 0).issued ∧
      ∃ (r : Nat) (q : Request I), t.store.requests[r]? = some q ∧ q.dropped = false ∧
        q.ticket = some n ∧ q.issued = issued ∧
        ∀ {s : Nat} {p : Request I}, t.store.requests[s]? = some p → p.ticket = some n → s = r
  /-- Requests for equal instructions are told apart by their cells. -/
  issued_inj : ∀ {r s : Nat} {q p : Request I}, t.store.requests[r]? = some q →
    t.store.requests[s]? = some p → q.issued = p.issued → r = s
  one_place : ∀ {r : Nat} {q : Request I}, t.store.requests[r]? = some q → ∃! place, t.Lies q place
  collected_once : t.collected.Nodup
  /-- No more tickets are given out than there are requests. -/
  issued_le : (t.store.slotAt 0).issued ≤ t.store.requests.size

end Traffic

end Trampoline
