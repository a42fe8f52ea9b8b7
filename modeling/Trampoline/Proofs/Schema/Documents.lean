import Trampoline.Proofs.Json.Reading
import Trampoline.Run.Config

/-!
The documents of schemas, shapes, counts and settings. Each value is read back from either of its
documents, and what is written of it is spelled out here: the names of the members, their order, and
which of them are left out.
-/
namespace Trampoline

open Json (Format Layout Tree)

namespace Document

variable {α β : Type} [Document α] [Document β]

/-- Both documents of a value are read back as this value. -/
structure RoundTrips (a : α) : Prop where
  compact : read (compact a) = .ok a
  pretty : read (pretty a) = .ok a

/-- Values of the format stand for values of the type, one to one. -/
structure Lawful (α : Type) [Document α] : Prop where
  isDistinct : (format α).isDistinct = true
  ofValue_toValue : ∀ a : α, ofValue (toValue a) = a

/-- All words in the document of a value have at most 64 bits. -/
def Fits (a : α) : Prop :=
  (format α).Fits (toValue a)

namespace Lawful

theorem map_map (h : Lawful α) (as : List α) : (as.map toValue).map (ofValue (α := α)) = as := by
  rw [List.map_map]
  exact (List.map_congr_left fun a _ => h.ofValue_toValue a).trans (List.map_id as)

theorem read_layout (h : Lawful α) {a : α} (hf : Fits a) (layout : Layout) :
    read (String.ofList (layout.chars 0 (tree a))) = .ok a := by
  rw [read, tree, Format.ofText_write layout h.isDistinct hf]
  exact congrArg Except.ok (h.ofValue_toValue a)

/-- Nothing is lost in a document. -/
theorem roundTrips (h : Lawful α) {a : α} (hf : Fits a) : RoundTrips a where
  compact := by
    rw [compact, Tree.compact_eq]
    exact h.read_layout hf _
  pretty := by
    rw [pretty, Tree.pretty_eq]
    exact h.read_layout hf _

end Lawful

/-! ### The types that have documents -/

theorem lawful_typeRef : Lawful TypeRef :=
  ⟨rfl, fun _ => rfl⟩

theorem lawful_parameter : Lawful Parameter :=
  ⟨by decide, fun _ => rfl⟩

theorem lawful_signature : Lawful Signature where
  isDistinct := by decide
  ofValue_toValue s :=
    congrArg (Signature.mk s.name s.result) (lawful_parameter.map_map s.parameters)

theorem lawful_schema : Lawful Schema where
  isDistinct := by decide
  ofValue_toValue s :=
    congrArg (Schema.mk s.baseName s.nameSpace) (lawful_signature.map_map s.instructions)

theorem lawful_nodeKind : Lawful NodeKind where
  isDistinct := by decide
  ofValue_toValue kind := by cases kind <;> rfl

theorem lawful_variant : Lawful Variant where
  isDistinct := by decide
  ofValue_toValue v :=
    congrArg (Variant.mk v.tag v.name v.result) (lawful_parameter.map_map v.fields)

theorem lawful_operation : Lawful Operation :=
  ⟨by decide, fun _ => rfl⟩

theorem lawful_shape : Lawful Shape where
  isDistinct := by decide
  ofValue_toValue s := by
    have hv := lawful_variant.map_map s.variants
    have ho := lawful_operation.map_map s.operations
    have hn := lawful_nodeKind.map_map s.nodes
    change Shape.mk s.nameSpace s.baseName s.handler s.program s.builder s.executor
      ((s.variants.map toValue).map ofValue) ((s.operations.map toValue).map ofValue)
      ((s.nodes.map toValue).map ofValue) = s
    rw [hv, ho, hn]

theorem lawful_runStats : Lawful RunStats :=
  ⟨by decide, fun _ => rfl⟩

theorem lawful_runConfig : Lawful RunConfig :=
  ⟨by decide, fun _ => rfl⟩

/-! ### Values that fit -/

theorem fits_typeRef (t : TypeRef) : Fits t :=
  trivial

theorem fits_parameter (p : Parameter) : Fits p :=
  ⟨trivial, trivial, trivial⟩

private theorem fits_map {as : List α} (h : ∀ a ∈ as, Fits a) :
    (Format.sequence (format α)).Fits (as.map toValue) := by
  intro value hv
  obtain ⟨a, ha, rfl⟩ := List.mem_map.mp hv
  exact h a ha

theorem fits_signature (s : Signature) : Fits s :=
  ⟨trivial, trivial, fits_map fun p _ => fits_parameter p, trivial⟩

theorem fits_schema (s : Schema) : Fits s :=
  ⟨trivial, fun _ _ => trivial, fits_map fun s _ => fits_signature s, trivial⟩

theorem fits_variant {v : Variant} (h : v.tag < UInt64.size) : Fits v :=
  ⟨h, trivial, trivial, fits_map fun p _ => fits_parameter p, trivial⟩

theorem fits_operation (o : Operation) : Fits o :=
  ⟨trivial, trivial, trivial⟩

theorem fits_shape {s : Shape} (h : ∀ v ∈ s.variants, v.tag < UInt64.size) : Fits s :=
  ⟨fun _ _ => trivial, trivial, trivial, trivial, trivial, trivial,
    fits_map fun v hv => fits_variant (h v hv), fits_map fun o _ => fits_operation o,
    fits_map fun _ _ => trivial, trivial⟩

theorem fits_runStats {s : RunStats} (hs : s.steps < UInt64.size) (hd : s.delays < UInt64.size)
    (hi : s.dispatches < UInt64.size) : Fits s :=
  ⟨hs, hd, hi, trivial⟩

theorem fits_runConfig {c : RunConfig} (hy : ∀ n ∈ c.yieldInterval, n < UInt64.size)
    (hl : ∀ n ∈ c.stepLimit, n < UInt64.size) : Fits c :=
  ⟨hy, hl, trivial, trivial⟩

/-! ### What is written -/

/-- The member of a text that may be absent, and is left out then. -/
def optionalMember (key : String) (value : Option String) : List (String × Tree) :=
  (value.map fun text => (key, Tree.text text)).toList

/-- A word that may be absent, and is written as nothing then. -/
def optionalWord : Option Nat → Tree
  | none => .null
  | some n => .number n

/-- The items of an array are written one by one. -/
private theorem write_map (as : List α) :
    (Format.sequence (format α)).write (as.map toValue) = .array (as.map tree) := by
  rw [Format.write, List.map_map]
  rfl

/-- What is written of every type: the names of the members, their order, and what is left out. -/
structure Spelled : Prop where
  typeRef : ∀ t : TypeRef, tree t = .text t.text
  parameter : ∀ p : Parameter, tree p = .object [("type", .text p.type.text), ("name", .text p.name)]
  signature : ∀ s : Signature, tree s = .object [("name", .text s.name),
    ("resultType", .text s.result.text), ("parameters", .array (s.parameters.map tree))]
  schema : ∀ s : Schema, tree s = .object ([("baseName", .text s.baseName)] ++
    optionalMember "namespace" s.nameSpace ++ [("instructions", .array (s.instructions.map tree))])
  variant : ∀ v : Variant, tree v = .object [("tag", .number v.tag), ("name", .text v.name),
    ("resultType", .text v.result.text), ("fields", .array (v.fields.map tree))]
  operation : ∀ o : Operation,
    tree o = .object [("variant", .text o.variant), ("resultType", .text o.result.text)]
  shape : ∀ s : Shape, tree s = .object (optionalMember "namespace" s.nameSpace ++
    [("baseName", .text s.baseName), ("handler", .text s.handler), ("program", .text s.program),
      ("builder", .text s.builder), ("executor", .text s.executor),
      ("variants", .array (s.variants.map tree)),
      ("handlerOperations", .array (s.operations.map tree)),
      ("nodes", .array (s.nodes.map fun kind => .text kind.name))])
  runStats : ∀ s : RunStats, tree s = .object [("steps", .number s.steps),
    ("delays", .number s.delays), ("dispatches", .number s.dispatches)]
  runConfig : ∀ c : RunConfig, tree c = .object [("yield_interval", optionalWord c.yieldInterval),
    ("step_limit", optionalWord c.stepLimit), ("debug", .flag c.debug)]

theorem spelled : Spelled where
  typeRef _ := rfl
  parameter _ := rfl
  signature s := by
    rw [← write_map]
    rfl
  schema s := by
    rw [← write_map]
    obtain ⟨baseName, nameSpace, instructions⟩ := s
    cases nameSpace <;> rfl
  variant v := by
    rw [← write_map]
    rfl
  operation _ := rfl
  shape s := by
    have hn : s.nodes.map (fun kind => Tree.text kind.name) = s.nodes.map tree :=
      List.map_congr_left fun kind _ => by cases kind <;> rfl
    rw [hn, ← write_map, ← write_map, ← write_map]
    obtain ⟨nameSpace, _⟩ := s
    cases nameSpace <;> rfl
  runStats _ := rfl
  runConfig c := by
    obtain ⟨yieldInterval, stepLimit, debug⟩ := c
    cases yieldInterval <;> cases stepLimit <;> rfl

/-- Nothing is lost in documents, and what is written in them is spelled out. Words have 64 bits. -/
structure Faithful : Prop where
  spelled : Spelled
  /-- A schema that is read from its document is checked; if it is valid, it is the schema that was
  written. -/
  checked : ∀ s : Schema, Schema.ofJson (pretty s) = s.validate.map fun _ => s
  schema : ∀ s : Schema, RoundTrips s
  typeRef : ∀ t : TypeRef, RoundTrips t
  parameter : ∀ p : Parameter, RoundTrips p
  signature : ∀ s : Signature, RoundTrips s
  variant : ∀ v : Variant, v.tag < UInt64.size → RoundTrips v
  operation : ∀ o : Operation, RoundTrips o
  shape : ∀ s : Shape, (∀ v ∈ s.variants, v.tag < UInt64.size) → RoundTrips s
  runStats : ∀ s : RunStats, s.steps < UInt64.size → s.delays < UInt64.size → s.dispatches < UInt64.size →
    RoundTrips s
  runConfig : ∀ c : RunConfig, (∀ n ∈ c.yieldInterval, n < UInt64.size) →
    (∀ n ∈ c.stepLimit, n < UInt64.size) → RoundTrips c

/-- The documents of all types are faithful. -/
theorem documents_faithful : Faithful where
  spelled := spelled
  checked s := by
    simp only [Schema.ofJson, (lawful_schema.roundTrips (fits_schema s)).pretty]
    cases s.validate <;> rfl
  schema s := lawful_schema.roundTrips (fits_schema s)
  typeRef t := lawful_typeRef.roundTrips (fits_typeRef t)
  parameter p := lawful_parameter.roundTrips (fits_parameter p)
  signature s := lawful_signature.roundTrips (fits_signature s)
  variant _ h := lawful_variant.roundTrips (fits_variant h)
  operation o := lawful_operation.roundTrips (fits_operation o)
  shape _ h := lawful_shape.roundTrips (fits_shape h)
  runStats _ hs hd hi := lawful_runStats.roundTrips (fits_runStats hs hd hi)
  runConfig _ hy hl := lawful_runConfig.roundTrips (fits_runConfig hy hl)

/-- The greatest words there are, a name that has to be escaped, and a schema that is written but not
read. -/
theorem documents_of_extremes :
    let most := UInt64.size - 1
    let named : Schema := ⟨"\x22\\\n\x01é😀", some "", []⟩
    let blank : Schema := ⟨" ", none, []⟩
    RoundTrips (RunStats.mk most most most) ∧ RoundTrips (RunConfig.mk (some most) none true) ∧
      RoundTrips (Variant.mk most "a" ⟨"b"⟩ []) ∧
      Schema.ofJson (pretty named) = .ok named ∧
      Schema.ofJson (pretty blank) = .error .emptyBaseName := by
  intro most named blank
  have hm : most < UInt64.size := by decide
  have hn : named.validate = .ok () := by
    have h : Text.allBlank named.baseName = false := by decide +kernel
    rw [Schema.validate, h]
    rfl
  have hb : blank.validate = .error .emptyBaseName := by
    have h : Text.allBlank blank.baseName = true := by decide +kernel
    rw [Schema.validate, h]
    rfl
  have hnamed := documents_faithful.checked named
  have hblank := documents_faithful.checked blank
  rw [hn] at hnamed
  rw [hb] at hblank
  refine ⟨documents_faithful.runStats _ hm hm hm, documents_faithful.runConfig _ ?_ nofun,
    documents_faithful.variant _ hm, hnamed, hblank⟩
  intro n hn
  cases hn
  exact hm

end Document

end Trampoline
