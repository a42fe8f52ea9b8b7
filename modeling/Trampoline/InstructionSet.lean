import Trampoline.Rendering
import Trampoline.Schema.Basic

/-!
Instruction sets. A set is a closed type of instructions, each with a name and a way to be shown; the
set as a whole has a schema.
-/
namespace Trampoline

/-- A closed set of instructions. -/
class InstructionSet (I : Type) where
  schema : Schema
  name : I → String
  /-- How an instruction is shown: its name and its parameters, but nothing of its cell. -/
  rendering : I → Rendering

namespace InstructionSet

variable {I : Type} [InstructionSet I]

/-- The text of an instruction, which tells its name and parameters. -/
def detail (i : I) : String :=
  (rendering i).compact

/-- How an instruction is shown as a member of its set. -/
def member (i : I) : Rendering :=
  .tuple (name i) [rendering i] true

def baseName (I : Type) [InstructionSet I] : String :=
  (schema I).baseName

/-- The entry of an instruction in the schema of its set. -/
def signature? (i : I) : Option Signature :=
  (schema I).find? (name i)

end InstructionSet

/-- A schema without a name space, from the names, results and parameters of its instructions; a
parameter is given by its name and its type. -/
def Schema.declare (baseName : String)
    (instructions : List (String × List (String × String) × String)) : Schema where
  baseName := baseName
  nameSpace := none
  instructions := instructions.map fun (name, parameters, result) =>
    ⟨name, ⟨result⟩, parameters.map fun (parameter, type) => ⟨⟨type⟩, parameter⟩⟩

end Trampoline
