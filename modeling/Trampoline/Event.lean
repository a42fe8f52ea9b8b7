import Trampoline.Failure
import Trampoline.InstructionSet

/-!
What a run reports on its way, for those who watch it. An event is a fact about the run; its level,
message and fields are how it is told.
-/
namespace Trampoline

/-- How important an event is. -/
inductive Level where
  | trace
  | debug
  | info
  | warn
  deriving DecidableEq

def Level.name : Level → String
  | .trace => "TRACE"
  | .debug => "DEBUG"
  | .info => "INFO"
  | .warn => "WARN"

/-- What is reported of a run. -/
inductive Event where
  /-- A run of a program over the named set begins. -/
  | started (set : String)
  /-- A node of the given kind is looked at, in the given step. -/
  | reducing (step : Nat) (kind : NodeKind)
  /-- The program is over. -/
  | returned (steps dispatches : Nat)
  | limitExceeded (limit : Nat)
  /-- A step of the program's own failed. -/
  | stepFailed (error : BuildError)
  /-- An instruction goes to the handler. -/
  | dispatching (instruction : String)
  | dispatchFailed (instruction : String) (error : RunError)
  /-- The program could not go on from the answer to an instruction. -/
  | continuationFailed (instruction : String) (error : BuildError)
  /-- A logged handler is asked to carry out an instruction. -/
  | handling (instruction params : String)
  /-- A logged handler carried out an instruction. -/
  | handled (instruction : String)
  /-- A logged handler refused an instruction. -/
  | refused (instruction : String) (failure : Failure)
  deriving DecidableEq

/-- The value of a field: text that is quoted in a log, or text that is not. -/
inductive FieldValue where
  | text (value : String)
  | shown (value : String)
  deriving DecidableEq

def FieldValue.bare : FieldValue → String
  | .text value => value
  | .shown value => value

def FieldValue.logged : FieldValue → String
  | .text value => String.ofList (Text.quoted value)
  | .shown value => value

namespace Event

def level : Event → Level
  | started _ => .debug
  | reducing _ _ => .debug
  | returned _ _ => .debug
  | limitExceeded _ => .warn
  | stepFailed _ => .debug
  | dispatching _ => .trace
  | dispatchFailed _ _ => .debug
  | continuationFailed _ _ => .debug
  | handling _ _ => .info
  | handled _ => .debug
  | refused _ _ => .warn

/-- The message of an event; the beginning of a run is a span of that name instead. -/
def message : Event → String
  | started _ => "run"
  | reducing _ _ => "reducing"
  | returned _ _ => "program returned"
  | limitExceeded _ => "program exceeded step limit"
  | stepFailed _ => "program step failed"
  | dispatching _ => "dispatching"
  | dispatchFailed _ _ => "dispatch failed"
  | continuationFailed _ _ => "continuation failed"
  | handling _ _ => "handling instruction"
  | handled _ => "instruction handled"
  | refused _ _ => "instruction failed"

/-- The fields of an event, in order. The identity of a run is random, so of it only the version of
its identifier is told. -/
def fields : Event → List (String × FieldValue)
  | started set => [("run_id", .shown "v4"), ("set", .text set)]
  | reducing step kind => [("step", .shown (toString step)), ("node", .shown kind.name)]
  | returned steps dispatches =>
    [("steps", .shown (toString steps)), ("dispatches", .shown (toString dispatches))]
  | limitExceeded limit => [("limit", .shown (toString limit))]
  | stepFailed e => [("error", .shown e.message)]
  | dispatching instruction => [("instruction", .text instruction)]
  | dispatchFailed instruction e =>
    [("instruction", .text instruction), ("error", .shown e.message)]
  | continuationFailed instruction e =>
    [("instruction", .text instruction), ("error", .shown e.message)]
  | handling instruction params =>
    [("instruction", .text instruction), ("params", .shown params)]
  | handled instruction => [("instruction", .text instruction)]
  | refused instruction failure =>
    [("instruction", .text instruction), ("error", .shown failure.message)]

/-- Whether an event opens a span, rather than standing for itself. -/
def isSpan : Event → Bool
  | started _ => true
  | _ => false

/-- Whether an event comes from a logged handler, rather than from the run itself. -/
def isHandlers : Event → Bool
  | handling _ _ => true
  | handled _ => true
  | refused _ _ => true
  | _ => false

end Event

end Trampoline
