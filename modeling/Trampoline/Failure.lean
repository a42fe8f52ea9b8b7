import Trampoline.Cell

/-!
Why a program stops early. A failure is the message of a handler or a description with the causes
behind it; around it stand the errors of building a node and of running a program, each with its
own wording and its own chain of causes.
-/
namespace Trampoline

/-- A message with the causes behind it, the outermost first. -/
structure Failure where
  message : String
  causes : List String := []
  deriving DecidableEq, Inhabited

namespace Failure

/-- All the messages, from the outermost to the root. -/
def chain (f : Failure) : List String :=
  f.message :: f.causes

/-- The failure that reports a cell error, which has no further cause. -/
def ofCell (e : CellError) : Failure :=
  ⟨e.message, []⟩

end Failure

/-- Why the next node of a program could not be built. -/
inductive BuildError where
  /-- The description reported a failure of its own. -/
  | described (failure : Failure)
  /-- The description is waiting, but for no instruction. -/
  | foreignSuspension
  /-- The answer was not in the cell it should be read from. -/
  | cell (error : CellError)
  deriving DecidableEq

namespace BuildError

def message : BuildError → String
  | .described f => "program description failed: " ++ f.message
  | .foreignSuspension => "program description suspended without requesting an instruction"
  | .cell e => "continuation could not read its instruction result: " ++ e.message

/-- The causes behind a build error, the nearest first. -/
def chain : BuildError → List String
  | .described f => f.chain
  | .foreignSuspension => []
  | .cell e => [e.message]

end BuildError

/-- Why a run ended without a value. -/
inductive RunError where
  /-- The handler refused an instruction. -/
  | handler (instruction : String) (failure : Failure)
  /-- The handler answered, but the instruction's cell had been filled before. -/
  | cell (instruction : String) (error : CellError)
  /-- The next node could not be built. -/
  | build (error : BuildError)
  /-- The program needed more steps than it was granted. -/
  | stepLimitExceeded (limit : Nat)
  deriving DecidableEq

namespace RunError

/-- The wording of a run error. A build error speaks for itself. -/
def message : RunError → String
  | .handler instruction f => "handler for '" ++ instruction ++ "' failed: " ++ f.message
  | .cell instruction e =>
      "could not record result of '" ++ instruction ++ "': " ++ e.message
  | .build e => e.message
  | .stepLimitExceeded limit => "program exceeded the step limit of " ++ toString limit

/-- The causes behind a run error, the nearest first. -/
def chain : RunError → List String
  | .handler _ f => f.chain
  | .cell _ e => [e.message]
  | .build e => e.chain
  | .stepLimitExceeded _ => []

/-- The instruction that a run error is about, if it is about one. -/
def instruction? : RunError → Option String
  | .handler instruction _ => some instruction
  | .cell instruction _ => some instruction
  | .build _ => none
  | .stepLimitExceeded _ => none

end RunError

end Trampoline
