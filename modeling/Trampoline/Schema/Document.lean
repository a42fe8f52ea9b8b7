import Trampoline.Json.Format
import Trampoline.Schema.Validity

/-!
The JSON documents of schemas and shapes. Each type has a format, and its values correspond one to
one to the values of that format; reading and writing are those of the format.
-/
namespace Trampoline

open Json (Format Fields)

/-- A type whose values have JSON documents. -/
class Document (α : Type) where
  format : Format
  toValue : α → format.Value
  ofValue : format.Value → α

namespace Document

variable {α : Type} [Document α]

/-- Reads a document that holds a value and nothing else. -/
def read (text : String) : Except Json.Fault α :=
  (Format.ofText (format α) text).map ofValue

def tree (a : α) : Json.Tree :=
  (format α).write (toValue a)

def compact (a : α) : String :=
  (tree a).compact

/-- The document of a value with one entry to a line. -/
def pretty (a : α) : String :=
  (tree a).pretty

end Document

instance : Document TypeRef where
  format := .text
  toValue t := t.text
  ofValue text := ⟨text⟩

instance : Document Parameter where
  format := .record "Parameter" <|
    .cons "type" .required .text <|
    .cons "name" .required .text .nil
  toValue p := (p.type.text, p.name, ())
  ofValue := fun (type, name, ()) => ⟨⟨type⟩, name⟩

instance : Document Signature where
  format := .record "InstructionDescriptor" <|
    .cons "name" .required .text <|
    .cons "resultType" .required .text <|
    .cons "parameters" .defaulted (.sequence (Document.format Parameter)) .nil
  toValue s := (s.name, s.result.text, s.parameters.map Document.toValue, ())
  ofValue := fun (name, result, parameters, ()) =>
    ⟨name, ⟨result⟩, parameters.map Document.ofValue⟩

instance : Document Schema where
  format := .record "Schema" <|
    .cons "baseName" .required .text <|
    .cons "namespace" .omittable (.optional .text) <|
    .cons "instructions" .required (.sequence (Document.format Signature)) .nil
  toValue s := (s.baseName, s.nameSpace, s.instructions.map Document.toValue, ())
  ofValue := fun (baseName, nameSpace, instructions, ()) =>
    ⟨baseName, nameSpace, instructions.map Document.ofValue⟩

instance : Document NodeKind where
  format := .choice "Return" ["Delay", "Await"]
  toValue
    | .result => (0 : Fin 3)
    | .delay => (1 : Fin 3)
    | .await => (2 : Fin 3)
  ofValue i := if i.val = 0 then .result else if i.val = 1 then .delay else .await

instance : Document Variant where
  format := .record "VariantShape" <|
    .cons "tag" .required (.word "usize") <|
    .cons "name" .required .text <|
    .cons "resultType" .required .text <|
    .cons "fields" .required (.sequence (Document.format Parameter)) .nil
  toValue v := (v.tag, v.name, v.result.text, v.fields.map Document.toValue, ())
  ofValue := fun (tag, name, result, fields, ()) =>
    ⟨tag, name, ⟨result⟩, fields.map Document.ofValue⟩

instance : Document Operation where
  format := .record "HandlerOperation" <|
    .cons "variant" .required .text <|
    .cons "resultType" .required .text .nil
  toValue o := (o.variant, o.result.text, ())
  ofValue := fun (variant, result, ()) => ⟨variant, ⟨result⟩⟩

instance : Document Shape where
  format := .record "InterpreterShape" <|
    .cons "namespace" .omittable (.optional .text) <|
    .cons "baseName" .required .text <|
    .cons "handler" .required .text <|
    .cons "program" .required .text <|
    .cons "builder" .required .text <|
    .cons "executor" .required .text <|
    .cons "variants" .required (.sequence (Document.format Variant)) <|
    .cons "handlerOperations" .required (.sequence (Document.format Operation)) <|
    .cons "nodes" .required (.sequence (Document.format NodeKind)) .nil
  toValue s :=
    (s.nameSpace, s.baseName, s.handler, s.program, s.builder, s.executor,
      s.variants.map Document.toValue, s.operations.map Document.toValue,
      s.nodes.map Document.toValue, ())
  ofValue := fun (nameSpace, baseName, handler, program, builder, executor, variants,
      operations, nodes, ()) =>
    ⟨nameSpace, baseName, handler, program, builder, executor, variants.map Document.ofValue,
      operations.map Document.ofValue, nodes.map Document.ofValue⟩

def Schema.ofJson (text : String) : Except SchemaError Schema :=
  match Document.read text with
  | .error fault => .error (.undecodable fault)
  | .ok schema => do
    schema.validate
    return schema

end Trampoline
