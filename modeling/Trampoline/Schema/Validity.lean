import Trampoline.Json.Fault
import Trampoline.Schema.Basic
import Trampoline.Text.Blank

/-!
Which schemas are valid, and the shape of a valid schema. A schema is valid when no name and no type
in it is blank, no two instructions have the same name, and no two parameters of one instruction do.
Of several violations the first one is reported, in the order in which the schema is written; a name
that repeats an earlier one is reported after everything else about its entry.
-/
namespace Trampoline

/-- What can be wrong with a schema. -/
inductive SchemaError where
  | emptyBaseName
  | emptyInstructionName (position : Nat)
  | duplicateInstruction (instruction : String)
  | emptyResultType (instruction : String)
  | incompleteParameter (instruction : String) (position : Nat)
  | duplicateParameter (instruction parameter : String)
  | duplicateTag (tag : Nat) (first second : String)
  | undecodable (fault : Json.Fault)
  deriving DecidableEq

def SchemaError.message : SchemaError → String
  | .emptyBaseName => "Schema base name must not be empty"
  | .emptyInstructionName position =>
    "Instruction at position " ++ toString position ++ " has an empty name"
  | .duplicateInstruction instruction =>
    "Instruction '" ++ instruction ++ "' is declared more than once"
  | .emptyResultType instruction =>
    "Instruction '" ++ instruction ++ "' has an empty result type"
  | .incompleteParameter instruction position =>
    "Parameter " ++ toString position ++ " of instruction '" ++ instruction ++
      "' is missing a name or type"
  | .duplicateParameter instruction parameter =>
    "Parameter '" ++ parameter ++ "' is declared more than once on instruction '" ++
      instruction ++ "'"
  | .duplicateTag tag first second =>
    "Variants '" ++ first ++ "' and '" ++ second ++ "' share tag " ++ toString tag
  | .undecodable fault => "Invalid schema document: " ++ fault.message

def Parameter.isIncomplete (p : Parameter) : Bool :=
  Text.allBlank p.name || Text.allBlank p.type.text

namespace Signature

/-- Checks the parameters of an instruction from the given position on, after those whose names are
in `seen`. -/
def checkParameters (instruction : String) :
    (seen : List String) → (position : Nat) → List Parameter → Except SchemaError Unit
  | _, _, [] => .ok ()
  | seen, position, p :: rest =>
    if p.isIncomplete then .error (.incompleteParameter instruction position)
    else if p.name ∈ seen then .error (.duplicateParameter instruction p.name)
    else checkParameters instruction (p.name :: seen) (position + 1) rest

/-- Checks one instruction, which stands at the given position of its schema. -/
def check (position : Nat) (s : Signature) : Except SchemaError Unit :=
  if Text.allBlank s.name then .error (.emptyInstructionName position)
  else if Text.allBlank s.result.text then .error (.emptyResultType s.name)
  else checkParameters s.name [] 0 s.parameters

end Signature

namespace Schema

/-- Checks instructions from the given position on, after those whose names are in `seen`. -/
def checkInstructions :
    (seen : List String) → (position : Nat) → List Signature → Except SchemaError Unit
  | _, _, [] => .ok ()
  | seen, position, s :: rest =>
    match s.check position with
    | .error e => .error e
    | .ok () =>
      if s.name ∈ seen then .error (.duplicateInstruction s.name)
      else checkInstructions (s.name :: seen) (position + 1) rest

/-- Reports the first violation in a schema, if there is one. -/
def validate (schema : Schema) : Except SchemaError Unit :=
  if Text.allBlank schema.baseName then .error .emptyBaseName
  else checkInstructions [] 0 schema.instructions

end Schema

namespace Shape

/-- The variants of instructions, numbered from the given tag on. -/
def variantsFrom : (tag : Nat) → List Signature → List Variant
  | _, [] => []
  | tag, s :: rest => ⟨tag, s.name, s.result, s.parameters⟩ :: variantsFrom (tag + 1) rest

/-- Reports the first variant whose tag was taken before, along with the latest variant that took
it. -/
def checkTags : (seen : List Variant) → List Variant → Except SchemaError Unit
  | _, [] => .ok ()
  | seen, v :: rest =>
    match seen.find? fun w => w.tag == v.tag with
    | some w => .error (.duplicateTag v.tag w.name v.name)
    | none => checkTags (v :: seen) rest

def operationOf (v : Variant) : Operation :=
  ⟨v.name, v.result⟩

/-- The shape of a valid schema; of any other schema the first violation. -/
def resolve (schema : Schema) : Except SchemaError Shape := do
  schema.validate
  let variants := variantsFrom 0 schema.instructions
  checkTags [] variants
  return {
    nameSpace := schema.nameSpace
    baseName := schema.baseName
    handler := schema.baseName ++ "Handler"
    program := schema.baseName ++ "Program"
    builder := schema.baseName ++ "ProgramBuilder"
    executor := schema.baseName ++ "ProgramExecutor"
    variants := variants
    operations := variants.map operationOf
    nodes := NodeKind.all }

end Shape

end Trampoline
