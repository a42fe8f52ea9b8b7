import Trampoline.Event

/-!
Handlers. A handler carries out instructions one at a time. A call may take several polls; what it
keeps in between is part of the handler's state, which nobody else sees while the call lasts.
-/
namespace Trampoline

/-- What a call has come to when it was polled. -/
inductive Reply (V : Type) where
  | pending
  | answered (value : V)
  | refused (failure : Failure)
  deriving DecidableEq

/-- The outcome of one poll of a call: what it has come to, the state of the handler, the cell of the
instruction, and what was reported. -/
structure Polled (V H : Type) where
  reply : Reply V
  state : H
  cell : Cell V
  events : List Event

/-- A handler with states in `H`. A call is polled with its instruction, the number of polls before
this one, the handler's state and the cell of the instruction, which most handlers leave alone. -/
structure Handler (I V H : Type) where
  poll : (instruction : I) → (polls : Nat) → H → Cell V → Polled V H

/-- How the dispatch of an instruction stands. -/
inductive Dispatched where
  | pending
  | stored
  | failed (error : RunError)
  deriving DecidableEq

/-- Polls a call and, once it is answered, puts the answer into the cell of the instruction. -/
def Handler.dispatch {I V H : Type} [InstructionSet I] (handler : Handler I V H) (instruction : I)
    (polls : Nat) (state : H) (cell : Cell V) : Dispatched × H × Cell V × List Event :=
  let polled := handler.poll instruction polls state cell
  match polled.reply with
  | .pending => (.pending, polled.state, polled.cell, polled.events)
  | .refused failure =>
    (.failed (.handler (InstructionSet.name instruction) failure), polled.state, polled.cell,
      polled.events)
  | .answered value =>
    match polled.cell.set value with
    | .ok cell => (.stored, polled.state, cell, polled.events)
    | .error e =>
      (.failed (.cell (InstructionSet.name instruction) e), polled.state, polled.cell,
        polled.events)

end Trampoline
