import Trampoline.Booking.Basic
import Trampoline.Schema.Validity

/-!
What the shape of a schema tells. Every valid schema has a shape, which lists the instructions in their
order, each tagged with its place, and from which the schema can be read back. The check of the tags never
fails, since tags are places.
-/
namespace Trampoline

/-- An instruction as the variant with this tag. -/
def Signature.variant (s : Signature) (tag : Nat) : Variant :=
  ⟨tag, s.name, s.result, s.parameters⟩

/-- The instruction behind a variant. -/
def Variant.signature (v : Variant) : Signature :=
  ⟨v.name, v.result, v.fields⟩

/-! ### Which errors there are -/

theorem Signature.checkParameters_ne_duplicateTag (instruction : String) (seen : List String)
    (position : Nat) (parameters : List Parameter) (tag : Nat) (first second : String) :
    checkParameters instruction seen position parameters ≠ .error (.duplicateTag tag first second) := by
  induction parameters generalizing seen position with
  | nil => nofun
  | cons p rest ih =>
    rw [checkParameters]
    split
    · nofun
    split
    · nofun
    · exact ih _ _

theorem Signature.check_ne_duplicateTag (position : Nat) (s : Signature) (tag : Nat)
    (first second : String) : s.check position ≠ .error (.duplicateTag tag first second) := by
  rw [check]
  split
  · nofun
  split
  · nofun
  · exact checkParameters_ne_duplicateTag _ _ _ _ _ _ _

namespace Schema

theorem checkInstructions_ne_duplicateTag (seen : List String) (position : Nat)
    (instructions : List Signature) (tag : Nat) (first second : String) :
    checkInstructions seen position instructions ≠ .error (.duplicateTag tag first second) := by
  induction instructions generalizing seen position with
  | nil => nofun
  | cons s rest ih =>
    have hs := s.check_ne_duplicateTag position tag first second
    rw [checkInstructions]
    cases hc : s.check position with
    | error e =>
      intro h
      rw [hc] at hs
      exact hs (congrArg _ (Except.error.inj h))
    | ok _ =>
      dsimp only
      split
      · nofun
      · exact ih _ _

/-- What is wrong with a schema is never a tag. -/
theorem validate_ne_duplicateTag (schema : Schema) (tag : Nat) (first second : String) :
    schema.validate ≠ .error (.duplicateTag tag first second) := by
  rw [validate]
  split
  · nofun
  · exact checkInstructions_ne_duplicateTag _ _ _ _ _ _

/-- The names of checked instructions differ from each other and from those seen before. -/
theorem names_of_checkInstructions {seen : List String} {position : Nat}
    {instructions : List Signature} (h : checkInstructions seen position instructions = .ok ()) :
    (instructions.map Signature.name).Nodup ∧ ∀ s ∈ instructions, s.name ∉ seen := by
  induction instructions generalizing seen position with
  | nil => exact ⟨List.nodup_nil, nofun⟩
  | cons s rest ih =>
    rw [checkInstructions] at h
    cases hc : s.check position with
    | error e => simp [hc] at h
    | ok _ =>
      simp only [hc] at h
      split at h
      · cases h
      rename_i hn
      obtain ⟨nodup, unseen⟩ := ih h
      constructor
      · rw [List.map_cons, List.nodup_cons]
        refine ⟨fun hm => ?_, nodup⟩
        obtain ⟨t, ht, he⟩ := List.mem_map.mp hm
        exact unseen t ht (he ▸ List.mem_cons_self)
      · intro t ht
        obtain rfl | ht := List.mem_cons.mp ht
        · exact hn
        · exact fun hm => unseen t ht (List.mem_cons_of_mem _ hm)

/-- The names in a valid schema differ from each other. -/
theorem names_nodup_of_validate {schema : Schema} (h : schema.validate = .ok ()) :
    (schema.instructions.map Signature.name).Nodup := by
  rw [validate] at h
  split at h
  · cases h
  · exact (names_of_checkInstructions h).1

/-- A name stands at one place only. -/
theorem place_unique {schema : Schema} (h : schema.validate = .ok ()) {i j : Nat} {d e : Signature}
    (hd : schema.instructions[i]? = some d) (he : schema.instructions[j]? = some e)
    (hn : d.name = e.name) : i = j := by
  have hi : i < (schema.instructions.map Signature.name).length := by
    rw [List.length_map]
    exact (List.getElem?_eq_some_iff.mp hd).1
  refine (List.getElem?_inj hi (names_nodup_of_validate h)).mp ?_
  rw [List.getElem?_map, List.getElem?_map, hd, he, Option.map_some, Option.map_some, hn]

end Schema

/-! ### Variants -/

namespace Shape

theorem variantsFrom_map_tag (tag : Nat) (instructions : List Signature) :
    (variantsFrom tag instructions).map Variant.tag = List.range' tag instructions.length := by
  induction instructions generalizing tag with
  | nil => rfl
  | cons s rest ih => rw [variantsFrom, List.map_cons, ih, List.length_cons, List.range'_succ]

/-- Nothing is lost on the way from instructions to variants. -/
theorem variantsFrom_map_signature (tag : Nat) (instructions : List Signature) :
    (variantsFrom tag instructions).map Variant.signature = instructions := by
  induction instructions generalizing tag with
  | nil => rfl
  | cons s rest ih => rw [variantsFrom, List.map_cons, ih]; rfl

/-- Tags are never repeated, so that the check of them has nothing to report. -/
theorem checkTags_variantsFrom (tag : Nat) (instructions : List Signature) {seen : List Variant}
    (h : ∀ v ∈ seen, v.tag < tag) : checkTags seen (variantsFrom tag instructions) = .ok () := by
  induction instructions generalizing tag seen with
  | nil => rfl
  | cons s rest ih =>
    have hf : seen.find? (fun w => w.tag == tag) = none := by
      rw [List.find?_eq_none]
      exact fun v hv he => Nat.ne_of_lt (h v hv) (beq_iff_eq.mp he)
    rw [variantsFrom, checkTags, hf]
    refine ih (tag + 1) fun v hv => ?_
    obtain rfl | hv := List.mem_cons.mp hv
    · exact Nat.lt_succ_self tag
    · exact Nat.lt_succ_of_lt (h v hv)

/-- The first variant with a name comes from the first instruction with it, and its tag tells the
place of that. -/
theorem find?_variantsFrom (tag : Nat) (instructions : List Signature) (name : String) :
    ((variantsFrom tag instructions).find? (·.name == name) = none ∧
      instructions.find? (·.name == name) = none) ∨
    ∃ i d, (variantsFrom tag instructions).find? (·.name == name) = some (d.variant (tag + i)) ∧
      instructions.find? (·.name == name) = some d ∧ instructions[i]? = some d := by
  induction instructions generalizing tag with
  | nil => exact .inl ⟨rfl, rfl⟩
  | cons s rest ih =>
    rw [variantsFrom, List.find?_cons, List.find?_cons]
    cases hs : s.name == name with
    | true => exact .inr ⟨0, s, rfl, rfl, rfl⟩
    | false =>
      obtain hn | ⟨i, d, hv, hd, hi⟩ := ih (tag + 1)
      · exact .inl hn
      · refine .inr ⟨i + 1, d, ?_, hd, hi⟩
        rw [Nat.add_comm i 1, ← Nat.add_assoc]
        exact hv

/-! ### Shapes -/

/-- The shape of a schema, whether it is valid or not. -/
def plan (schema : Schema) : Shape where
  nameSpace := schema.nameSpace
  baseName := schema.baseName
  handler := schema.baseName ++ "Handler"
  program := schema.baseName ++ "Program"
  builder := schema.baseName ++ "ProgramBuilder"
  executor := schema.baseName ++ "ProgramExecutor"
  variants := variantsFrom 0 schema.instructions
  operations := (variantsFrom 0 schema.instructions).map operationOf
  nodes := NodeKind.all

/-- Only an invalid schema has no shape. -/
theorem resolve_eq (schema : Schema) : resolve schema = schema.validate.map fun _ => plan schema := by
  have ht : checkTags [] (variantsFrom 0 schema.instructions) = .ok () :=
    checkTags_variantsFrom 0 schema.instructions nofun
  rw [resolve]
  cases schema.validate with
  | error e => rfl
  | ok _ =>
    simp only [bind, Except.bind, ht]
    rfl

theorem plan_injective : Function.Injective plan := by
  intro a b h
  have hv : variantsFrom 0 a.instructions = variantsFrom 0 b.instructions := congrArg Shape.variants h
  have hi := congrArg (List.map Variant.signature) hv
  rw [variantsFrom_map_signature, variantsFrom_map_signature] at hi
  obtain ⟨_, _, _⟩ := a
  cases congrArg Shape.baseName h
  cases congrArg Shape.nameSpace h
  cases hi
  rfl

/-- What a shape tells of the schema that it comes from. -/
structure Faithful (schema : Schema) (shape : Shape) : Prop where
  tags : shape.variants.map Variant.tag = List.range schema.instructions.length
  /-- There is an operation for every variant, in the same order. -/
  operations : shape.operations.map (fun o => (o.variant, o.result)) =
    shape.variants.map fun v => (v.name, v.result)
  found_iff : ∀ name, (shape.find? name).isSome ↔ (schema.find? name).isSome
  /-- Looking a name up gives the variant and the instruction of one place. -/
  agree : ∀ name v d, shape.find? name = some v → schema.find? name = some d →
    schema.instructions[v.tag]? = some d ∧ v.name = d.name ∧ d.name = name ∧ v.result = d.result ∧
      v.fields = d.parameters
  /-- No other place has the same name. -/
  unique : ∀ name v i d, shape.find? name = some v → schema.instructions[i]? = some d →
    d.name = name → i = v.tag

private theorem faithful_plan {schema : Schema} (h : schema.validate = .ok ()) :
    Faithful schema (plan schema) where
  tags := by
    rw [plan, variantsFrom_map_tag, List.range_eq_range']
  operations := by
    rw [plan, List.map_map]
    rfl
  found_iff name := by
    obtain ⟨hv, hd⟩ | ⟨i, d, hv, hd, _⟩ := find?_variantsFrom 0 schema.instructions name
    · rw [find?, plan, hv, Schema.find?, hd]
      rfl
    · rw [find?, plan, hv, Schema.find?, hd]
      rfl
  agree name v d hv hd := by
    obtain ⟨hn, _⟩ | ⟨i, e, hf, he, hi⟩ := find?_variantsFrom 0 schema.instructions name
    · cases hn.symm.trans hv
    · cases hf.symm.trans hv
      cases he.symm.trans hd
      have hname : d.name = name := by simpa using List.find?_some hd
      rw [Nat.zero_add]
      exact ⟨hi, rfl, hname, rfl, rfl⟩
  unique name v i d hv hd hn := by
    obtain ⟨hf, _⟩ | ⟨j, e, hf, he, hj⟩ := find?_variantsFrom 0 schema.instructions name
    · cases hf.symm.trans hv
    · cases hf.symm.trans hv
      have hname : e.name = name := by simpa using List.find?_some he
      exact (Schema.place_unique h hd hj (hn.trans hname.symm)).trans (Nat.zero_add j).symm

/-- A schema has a shape exactly if it is valid, and otherwise the first violation is reported. The shape
is faithful, and no two valid schemas have the same one. -/
theorem resolve_faithful (schema : Schema) :
    (∀ e, resolve schema = .error e ↔ schema.validate = .error e) ∧
      (∀ tag first second, resolve schema ≠ .error (.duplicateTag tag first second)) ∧
      ((∃ shape, resolve schema = .ok shape) ↔ schema.validate = .ok ()) ∧
      (∀ shape, resolve schema = .ok shape → Faithful schema shape) ∧
      ∀ other : Schema, schema.validate = .ok () → other.validate = .ok () →
        (resolve schema = resolve other ↔ schema = other) := by
  have he (e : SchemaError) : resolve schema = .error e ↔ schema.validate = .error e := by
    rw [resolve_eq]
    cases schema.validate <;> simp [Except.map]
  refine ⟨he, ?_, ?_, ?_, ?_⟩
  · intro tag first second h
    exact schema.validate_ne_duplicateTag tag first second ((he _).mp h)
  · rw [resolve_eq]
    cases schema.validate <;> simp [Except.map]
  · intro shape h
    rw [resolve_eq] at h
    cases hv : schema.validate with
    | error e =>
      rw [hv] at h
      cases h
    | ok _ =>
      rw [hv] at h
      cases h
      exact faithful_plan hv
  · intro other hs ho
    rw [resolve_eq, resolve_eq, hs, ho]
    constructor
    · intro h
      exact plan_injective (Except.ok.inj h)
    · rintro rfl
      rfl

/-- Two sets of instructions that differ in their name spaces only. -/
theorem resolve_booking :
    let named : Schema := { Booking.Instruction.schema with nameSpace := some "" }
    ∃ shape, resolve Booking.Instruction.schema = .ok shape ∧
      Faithful Booking.Instruction.schema shape ∧
      Booking.Instruction.schema.validate = .ok () ∧ named.validate = .ok () ∧
      resolve Booking.Instruction.schema ≠ resolve named := by
  intro named
  have hs : Booking.Instruction.schema.validate = .ok () := by rfl
  have hn : named.validate = .ok () := hs
  obtain ⟨_, _, total, faithful, injective⟩ := resolve_faithful Booking.Instruction.schema
  obtain ⟨shape, h⟩ := total.mpr hs
  refine ⟨shape, h, faithful shape h, hs, hn, fun he => ?_⟩
  have := (injective named hs hn).mp he
  exact absurd (congrArg Schema.nameSpace this) (by decide)

end Shape

end Trampoline
