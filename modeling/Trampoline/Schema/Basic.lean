/-!
Schemas. A schema lists the instructions of a set: for each its name, the type of its result and its
parameters. Types are opaque here; they are only ever compared as text.
-/
namespace Trampoline

/-- A type, known by how it is written. -/
structure TypeRef where
  text : String
  deriving DecidableEq

/-- A parameter of an instruction. -/
structure Parameter where
  type : TypeRef
  name : String
  deriving DecidableEq

/-- One instruction as its schema lists it. -/
structure Signature where
  name : String
  result : TypeRef
  parameters : List Parameter
  deriving DecidableEq

/-- The description of an instruction set. -/
structure Schema where
  /-- The name that the parts of the set share. -/
  baseName : String
  /-- The name space the set lives in, if it was given one. -/
  nameSpace : Option String
  instructions : List Signature
  deriving DecidableEq

def Schema.find? (schema : Schema) (name : String) : Option Signature :=
  schema.instructions.find? fun signature => signature.name == name

/-- The kinds of nodes that a program consists of. -/
inductive NodeKind where
  /-- The program is over and has a value. -/
  | result
  /-- A step of the program's own is due. -/
  | delay
  /-- An instruction is to be carried out. -/
  | await
  deriving DecidableEq

namespace NodeKind

def name : NodeKind → String
  | result => "Return"
  | delay => "Delay"
  | await => "Await"

def fields : NodeKind → List String
  | result => ["value"]
  | delay => ["thunk"]
  | await => ["instruction", "continuation"]

/-- All node kinds, in the order in which they are declared. -/
def all : List NodeKind :=
  [result, delay, await]

end NodeKind

/-- One instruction of a resolved set. -/
structure Variant where
  /-- The place of the instruction in its set. -/
  tag : Nat
  name : String
  result : TypeRef
  fields : List Parameter
  deriving DecidableEq

/-- What a handler owes to one instruction. -/
structure Operation where
  variant : String
  result : TypeRef
  deriving DecidableEq

/-- Everything that is needed to lay out the types and programs of a schema. -/
structure Shape where
  nameSpace : Option String
  baseName : String
  handler : String
  program : String
  builder : String
  executor : String
  variants : List Variant
  operations : List Operation
  nodes : List NodeKind
  deriving DecidableEq

def Shape.find? (shape : Shape) (name : String) : Option Variant :=
  shape.variants.find? fun variant => variant.name == name

end Trampoline
