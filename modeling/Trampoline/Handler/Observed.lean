import Trampoline.Handler.Basic

/-!
Observed handlers. A handler can be wrapped so that its calls are reported, or so that they are
recorded. Neither changes what the handler does or what the program gets to see.
-/
namespace Trampoline

/-- One entry of a record. -/
structure LogEntry where
  instruction : String
  /-- The text of the instruction with its parameters. -/
  detail : String
  /-- Whether the call was answered. -/
  succeeded : Bool
  deriving DecidableEq

/-- The state of a recorded handler: the state of the handler itself, and its calls so far. -/
structure Recorded (H : Type) where
  inner : H
  log : Array LogEntry

def LogEntry.begun {I : Type} [InstructionSet I] (instruction : I) : LogEntry :=
  ⟨InstructionSet.name instruction, InstructionSet.detail instruction, false⟩

def markLast (log : Array LogEntry) : Array LogEntry :=
  log.modify (log.size - 1) fun entry => { entry with succeeded := true }

/-- One layer of observation around a handler. -/
inductive Layer where
  | logging
  | recording
  deriving DecidableEq

/-- The states of a handler inside layers of observation, the outermost first. -/
@[reducible] def Layered (H : Type) : List Layer → Type
  | [] => H
  | .logging :: layers => Layered H layers
  | .recording :: layers => Recorded (Layered H layers)

namespace Handler

variable {I V H : Type} [InstructionSet I]

/-- The handler whose calls are recorded. The entry of a call is made before the call and marked when
the call is answered. -/
def recorded (handler : Handler I V H) : Handler I V (Recorded H) where
  poll instruction polls state cell :=
    let ⟨inner, log⟩ := state
    let log := if polls = 0 then log.push (.begun instruction) else log
    let ⟨reply, inner, cell, events⟩ := handler.poll instruction polls inner cell
    let log := match reply with
      | .answered _ => markLast log
      | .pending => log
      | .refused _ => log
    ⟨reply, ⟨inner, log⟩, cell, events⟩

/-- The handler whose calls are reported, when they begin and when they end. -/
def logged (handler : Handler I V H) : Handler I V H where
  poll instruction polls state cell :=
    let name := InstructionSet.name instruction
    let ⟨reply, state, cell, events⟩ := handler.poll instruction polls state cell
    let before :=
      if polls = 0 then [Event.handling name (InstructionSet.detail instruction)] else []
    let after := match reply with
      | .answered _ => [Event.handled name]
      | .refused failure => [Event.refused name failure]
      | .pending => []
    ⟨reply, state, cell, before ++ events ++ after⟩

def layered (handler : Handler I V H) : (layers : List Layer) → Handler I V (Layered H layers)
  | [] => handler
  | .logging :: layers => (handler.layered layers).logged
  | .recording :: layers => (handler.layered layers).recorded

end Handler

namespace Layered

variable {H : Type}

/-- A state inside layers that have recorded nothing. -/
def start (state : H) : (layers : List Layer) → Layered H layers
  | [] => state
  | .logging :: layers => start state layers
  | .recording :: layers => ⟨start state layers, #[]⟩

def inner : (layers : List Layer) → Layered H layers → H
  | [], state => state
  | .logging :: layers, state => inner layers state
  | .recording :: layers, state => inner layers (Recorded.inner state)

/-- The record of the outermost layer that keeps one. -/
def log? : (layers : List Layer) → Layered H layers → Option (Array LogEntry)
  | [], _ => none
  | .logging :: layers, state => log? layers state
  | .recording :: _, state => some (Recorded.log state)

end Layered

end Trampoline
