import Mathlib.Data.List.Forall2
import Trampoline.Proofs.Json.Decoding
import Trampoline.Proofs.Schema.Documents

/-!
Documents in any spelling. A schema may be given in many ways: members in any order and among members
that nobody knows, arrays in place of objects, characters escaped or not, and white space anywhere. What
is spelled here is said of sources, without a word about how they are read; reading gives a schema exactly
on the documents that spell it. Settings are read in the same way, and a member that stands twice is never
let through.
-/
namespace Trampoline

open Json (Source Items Members Numeral Format Fields Space said? ofDigits)

namespace Spelling

variable {α : Type} {spells : Source → Prop} {absent : Prop} {sources : List Source} {source : Source}

/-! ### What a source spells -/

/-- A text, whichever of its characters are escaped. -/
inductive Text (text : String) : Source → Prop
  | string {glyphs : List Json.Glyph} : said? glyphs = some text → Text text (.string glyphs)

/-- A word of 64 bits, written with digits only. -/
inductive Word (n : Nat) : Source → Prop
  | number {numeral : Numeral} : numeral.IsPlain → ofDigits numeral.whole.chars = n →
      n < UInt64.size → Word n (.number numeral)

inductive Flag (value : Bool) : Source → Prop
  | flag : Flag value (.flag value)

/-- A value that may be absent, and is given as nothing then. -/
inductive Maybe (spells : α → Source → Prop) : Option α → Source → Prop
  | absent : Maybe spells none .null
  | present {a : α} {source : Source} : spells a source → Maybe spells (some a) source

inductive Each (spells : α → Source → Prop) : List α → Source → Prop
  | array {as : List α} {items : Items} : List.Forall₂ spells as items.sources →
      Each spells as (.array items)

/-- A field that is given once. -/
inductive Once (spells : Source → Prop) : List Source → Prop
  | once {source : Source} : spells source → Once spells [source]

/-- A field that is given once, or left out if its value is absent. -/
inductive AtMostOnce (absent : Prop) (spells : Source → Prop) : List Source → Prop
  | missing : absent → AtMostOnce absent spells []
  | once {source : Source} : spells source → AtMostOnce absent spells [source]

/-- All keys have to be texts, also those that nobody knows. -/
inductive OfParameter (p : Parameter) : Source → Prop
  | object {members : Members} : members.areLegible = true →
      Once (Text p.type.text) (members.under "type") →
      Once (Text p.name) (members.under "name") → OfParameter p (.object members)
  | array {items : Items} {type name : Source} : items.sources = [type, name] →
      Text p.type.text type → Text p.name name → OfParameter p (.array items)

inductive OfSignature (s : Signature) : Source → Prop
  | object {members : Members} : members.areLegible = true →
      Once (Text s.name) (members.under "name") →
      Once (Text s.result.text) (members.under "resultType") →
      AtMostOnce (s.parameters = []) (Each OfParameter s.parameters) (members.under "parameters") →
      OfSignature s (.object members)
  | array {items : Items} {name result : Source} {parameters : List Source} :
      items.sources = name :: result :: parameters →
      Text s.name name → Text s.result.text result →
      AtMostOnce (s.parameters = []) (Each OfParameter s.parameters) parameters →
      OfSignature s (.array items)

inductive OfSchema (s : Schema) : Source → Prop
  | object {members : Members} : members.areLegible = true →
      Once (Text s.baseName) (members.under "baseName") →
      AtMostOnce (s.nameSpace = none) (Maybe Text s.nameSpace) (members.under "namespace") →
      Once (Each OfSignature s.instructions) (members.under "instructions") →
      OfSchema s (.object members)
  | array {items : Items} {baseName nameSpace instructions : Source} :
      items.sources = [baseName, nameSpace, instructions] →
      Text s.baseName baseName → Maybe Text s.nameSpace nameSpace →
      Each OfSignature s.instructions instructions → OfSchema s (.array items)

/-- Settings may leave out what is as it is by default. -/
inductive OfConfig (c : RunConfig) : Source → Prop
  | object {members : Members} : members.areLegible = true →
      AtMostOnce (c.yieldInterval = RunConfig.default.yieldInterval) (Maybe Word c.yieldInterval)
        (members.under "yield_interval") →
      AtMostOnce (c.stepLimit = RunConfig.default.stepLimit) (Maybe Word c.stepLimit)
        (members.under "step_limit") →
      AtMostOnce (c.debug = RunConfig.default.debug) (Flag c.debug) (members.under "debug") →
      OfConfig c (.object members)

/-! ### What it means in a format -/

/-- In a format, just those sources mean a value that spell it. -/
def Meant (format : Format) (value : format.Value) (spells : Source → Prop) : Prop :=
  ∀ source, format.value? source = some value ↔ spells source

theorem meant_text (text : String) : Meant .text text (Text text) := by
  intro source
  cases source with
  | string glyphs => exact ⟨.string, fun | .string h => h⟩
  | _ => exact ⟨nofun, nofun⟩

theorem meant_flag (value : Bool) : Meant .flag value (Flag value) := by
  intro source
  cases source with
  | flag other => exact ⟨fun h => Option.some.inj h ▸ .flag, fun | .flag => rfl⟩
  | _ => exact ⟨nofun, nofun⟩

theorem meant_word (expected : String) (n : Nat) : Meant (.word expected) n (Word n) := by
  intro source
  cases source with
  | number numeral =>
    change numeral.word? = some n ↔ _
    rw [Numeral.word?, Option.ite_none_right_eq_some]
    constructor
    · rintro ⟨⟨hp, hn⟩, he⟩
      cases he
      exact .number hp rfl hn
    · rintro ⟨hp, rfl, hn⟩
      exact ⟨⟨hp, hn⟩, rfl⟩
  | _ => constructor <;> intro h <;> cases h

theorem meant_maybe {format : Format} {value : α → format.Value} {spells : α → Source → Prop}
    (h : ∀ a, Meant format (value a) (spells a)) (hn : format.value? .null = none) (a : Option α) :
    Meant (.optional format) (a.map value) (Maybe spells a) := by
  intro source
  by_cases hs : source = .null
  · subst hs
    cases a with
    | none => exact ⟨fun _ => .absent, fun _ => rfl⟩
    | some a =>
      refine ⟨nofun, fun | .present hp => ?_⟩
      cases hn.symm.trans ((h a .null).mpr hp)
  · rw [format.value?_optional hs]
    cases a with
    | none =>
      refine ⟨fun he => ?_, fun | .absent => absurd rfl hs⟩
      cases hv : format.value? source <;> rw [hv] at he <;> cases he
    | some a =>
      rw [Option.map_some, Option.map_eq_some_iff]
      refine ⟨?_, fun | .present hp => ⟨value a, (h a source).mpr hp, rfl⟩⟩
      rintro ⟨v, hv, he⟩
      cases he
      exact .present ((h a source).mp hv)

theorem mapM_eq_some_map {format : Format} {value : α → format.Value} {spells : α → Source → Prop}
    (h : ∀ a, Meant format (value a) (spells a)) (as : List α) (sources : List Source) :
    sources.mapM format.value? = some (as.map value) ↔ List.Forall₂ spells as sources := by
  induction sources generalizing as with
  | nil =>
    cases as with
    | nil => exact ⟨fun _ => .nil, fun _ => rfl⟩
    | cons _ _ => exact ⟨nofun, nofun⟩
  | cons source sources ih =>
    rw [List.mapM_cons]
    cases as with
    | nil =>
      refine ⟨fun he => ?_, nofun⟩
      obtain ⟨v, _, hr⟩ := Option.bind_eq_some_iff.mp he
      obtain ⟨vs, _, hc⟩ := Option.bind_eq_some_iff.mp hr
      cases hc
    | cons a as =>
      rw [List.forall₂_cons, ← h, ← ih]
      constructor
      · intro he
        obtain ⟨v, hv, hr⟩ := Option.bind_eq_some_iff.mp he
        obtain ⟨vs, hvs, hc⟩ := Option.bind_eq_some_iff.mp hr
        cases hc
        exact ⟨hv, hvs⟩
      · rintro ⟨hv, hvs⟩
        rw [hv, hvs]
        rfl

theorem meant_each {format : Format} {value : α → format.Value} {spells : α → Source → Prop}
    (h : ∀ a, Meant format (value a) (spells a)) (as : List α) :
    Meant (.sequence format) (as.map value) (Each spells as) := by
  intro source
  cases source with
  | array items =>
    exact (mapM_eq_some_map h as items.sources).trans ⟨.array, fun | .array hf => hf⟩
  | _ => exact ⟨nofun, nofun⟩

/-! ### Fields of records -/

/-- The value of a field from what is given for it. -/
def field? (format : Format) (presence : Json.Presence) : List Source → Option format.Value
  | [] => format.fallback presence
  | [source] => format.value? source
  | _ :: _ :: _ => none

theorem field?_required {format : Format} {value : format.Value} (h : Meant format value spells) :
    field? format .required sources = some value ↔ Once spells sources := by
  match sources with
  | [] => exact ⟨nofun, nofun⟩
  | [source] => exact (h source).trans ⟨.once, fun | .once hs => hs⟩
  | _ :: _ :: _ => exact ⟨nofun, nofun⟩

theorem field?_optional {format : Format} {presence : Json.Presence} (hp : presence ≠ .required)
    {value : format.Value} (h : Meant format value spells) (hn : format.neutral = value ↔ absent) :
    field? format presence sources = some value ↔ AtMostOnce absent spells sources := by
  match sources with
  | [] =>
    rw [field?, Format.fallback, if_neg hp, Option.some_inj, hn]
    exact ⟨.missing, fun | .missing ha => ha⟩
  | [source] => exact (h source).trans ⟨.once, fun | .once hs => hs⟩
  | _ :: _ :: _ => exact ⟨nofun, nofun⟩

private theorem pair_eq_some {β : Type} {a : Option α} {b : Option β} {c : α} {d : β} :
    (a.bind fun a => b.map fun b => (a, b)) = some (c, d) ↔ a = some c ∧ b = some d := by
  cases a <;> cases b <;> simp

variable {key : String} {presence : Json.Presence} {format : Format} {rest : Fields}
  {value : format.Value} {values : rest.Values}

theorem value?_object {name : String} {fields : Fields} {values : fields.Values} {members : Members}
    {found : Prop} (h : fields.ofMembers members = some values ↔ found) :
    (Format.record name fields).value? (.object members) = some values ↔
      members.areLegible = true ∧ found := by
  change (if members.areLegible then fields.ofMembers members else none) = some values ↔ _
  rw [Option.ite_none_right_eq_some, h]

theorem ofMembers_cons {members : Members} {first others : Prop}
    (h : field? format presence (members.under key) = some value ↔ first)
    (hr : rest.ofMembers members = some values ↔ others) :
    (Fields.cons key presence format rest).ofMembers members = some (value, values) ↔
      first ∧ others :=
  pair_eq_some.trans (and_congr h hr)

/-- A field of an array must be there, unless it may be missing along with all fields behind it. -/
theorem ofItems_cons (h : Meant format value spells)
    (hp : presence = .required ∨ rest.ofItems [] = none) :
    (Fields.cons key presence format rest).ofItems sources = some (value, values) ↔
      ∃ source others, sources = source :: others ∧ spells source ∧
        rest.ofItems others = some values := by
  cases sources with
  | nil =>
    refine ⟨fun he => ?_, nofun⟩
    obtain ⟨hv, hr⟩ := pair_eq_some.mp he
    obtain rfl | hn := hp
    · cases hv
    · cases hn.symm.trans hr
  | cons source others =>
    refine pair_eq_some.trans ((and_congr_left fun _ => h source).trans ?_)
    constructor
    · exact fun ⟨hv, hr⟩ => ⟨source, others, rfl, hv, hr⟩
    · rintro ⟨_, _, he, hv, hr⟩
      cases he
      exact ⟨hv, hr⟩

theorem ofItems_last : (Fields.cons key presence format .nil).ofItems sources = some (value, ()) ↔
    field? format presence sources = some value := by
  match sources with
  | [] => exact pair_eq_some.trans (and_iff_left rfl)
  | [source] => exact pair_eq_some.trans (and_iff_left rfl)
  | source :: _ :: _ => exact ⟨fun h => (nomatch (pair_eq_some.mp h).2), nofun⟩

/-! ### Schemas and settings -/

theorem meant_parameter (p : Parameter) :
    Meant (Document.format Parameter) (Document.toValue p) (OfParameter p) := by
  have ht := meant_text p.type.text
  have hn := meant_text p.name
  intro source
  cases source with
  | array items =>
    refine (ofItems_cons ht (.inl rfl)).trans ⟨?_, fun | .array hs h₁ h₂ => ?_⟩
    · rintro ⟨type, others, hs, h₁, hr⟩
      obtain ⟨h₂⟩ := (field?_required hn).mp (ofItems_last.mp hr)
      exact .array hs h₁ h₂
    · exact ⟨_, _, hs, h₁, ofItems_last.mpr ((field?_required hn).mpr (.once h₂))⟩
  | object members =>
    refine (value?_object (ofMembers_cons (field?_required ht)
      (ofMembers_cons (field?_required hn) Iff.rfl))).trans ?_
    exact ⟨fun ⟨hl, h₁, h₂, _⟩ => .object hl h₁ h₂, fun | .object hl h₁ h₂ => ⟨hl, h₁, h₂, rfl⟩⟩
  | _ => exact ⟨nofun, nofun⟩

theorem meant_signature (s : Signature) :
    Meant (Document.format Signature) (Document.toValue s) (OfSignature s) := by
  have hn := meant_text s.name
  have hr := meant_text s.result.text
  have hp : Meant (.sequence (Document.format Parameter)) (s.parameters.map Document.toValue)
      (Each OfParameter s.parameters) :=
    meant_each meant_parameter s.parameters
  have hnone : (Format.sequence (Document.format Parameter)).neutral =
      s.parameters.map Document.toValue ↔ s.parameters = [] := by
    cases s.parameters with
    | nil => exact ⟨fun _ => rfl, fun _ => rfl⟩
    | cons _ _ => exact ⟨nofun, nofun⟩
  intro source
  cases source with
  | array items =>
    refine (ofItems_cons hn (.inl rfl)).trans ⟨?_, fun | .array hs h₁ h₂ h₃ => ?_⟩
    · rintro ⟨name, others, hs, h₁, hrest⟩
      obtain ⟨result, parameters, rfl, h₂, hrest⟩ := (ofItems_cons hr (.inl rfl)).mp hrest
      exact .array hs h₁ h₂ ((field?_optional (by decide) hp hnone).mp (ofItems_last.mp hrest))
    · exact ⟨_, _, hs, h₁, (ofItems_cons hr (.inl rfl)).mpr ⟨_, _, rfl, h₂, ofItems_last.mpr
        ((field?_optional (by decide) hp hnone).mpr h₃)⟩⟩
  | object members =>
    refine (value?_object (ofMembers_cons (field?_required hn) (ofMembers_cons (field?_required hr)
      (ofMembers_cons (field?_optional (by decide) hp hnone) Iff.rfl)))).trans ?_
    exact ⟨fun ⟨hl, h₁, h₂, h₃, _⟩ => .object hl h₁ h₂ h₃,
      fun | .object hl h₁ h₂ h₃ => ⟨hl, h₁, h₂, h₃, rfl⟩⟩
  | _ => exact ⟨nofun, nofun⟩

theorem meant_schema (s : Schema) :
    Meant (Document.format Schema) (Document.toValue s) (OfSchema s) := by
  have hb := meant_text s.baseName
  have hn : Meant (.optional .text) s.nameSpace (Maybe Text s.nameSpace) := by
    have h := meant_maybe meant_text rfl s.nameSpace
    rwa [Option.map_id'] at h
  have hi : Meant (.sequence (Document.format Signature)) (s.instructions.map Document.toValue)
      (Each OfSignature s.instructions) :=
    meant_each meant_signature s.instructions
  intro source
  cases source with
  | array items =>
    refine (ofItems_cons hb (.inl rfl)).trans ⟨?_, fun | .array hs h₁ h₂ h₃ => ?_⟩
    · rintro ⟨baseName, others, hs, h₁, hrest⟩
      obtain ⟨nameSpace, others, rfl, h₂, hrest⟩ := (ofItems_cons hn (.inr rfl)).mp hrest
      obtain ⟨h₃⟩ := (field?_required hi).mp (ofItems_last.mp hrest)
      exact .array hs h₁ h₂ h₃
    · exact ⟨_, _, hs, h₁, (ofItems_cons hn (.inr rfl)).mpr ⟨_, _, rfl, h₂, ofItems_last.mpr
        ((field?_required hi).mpr (.once h₃))⟩⟩
  | object members =>
    refine (value?_object (ofMembers_cons (field?_required hb)
      (ofMembers_cons (field?_optional (by decide) hn eq_comm)
        (ofMembers_cons (field?_required hi) Iff.rfl)))).trans ?_
    exact ⟨fun ⟨hl, h₁, h₂, h₃, _⟩ => .object hl h₁ h₂ h₃,
      fun | .object hl h₁ h₂ h₃ => ⟨hl, h₁, h₂, h₃, rfl⟩⟩
  | _ => exact ⟨nofun, nofun⟩

theorem meant_config (c : RunConfig) (members : Members) :
    (Document.format RunConfig).value? (.object members) = some (Document.toValue c) ↔
      OfConfig c (.object members) := by
  have hword (n : Option Nat) : Meant (.optional (.word "u64")) n (Maybe Word n) := by
    have h := meant_maybe (meant_word "u64") rfl n
    rwa [Option.map_id'] at h
  refine (value?_object (ofMembers_cons (field?_optional (by decide) (hword c.yieldInterval) eq_comm)
    (ofMembers_cons (field?_optional (by decide) (hword c.stepLimit) eq_comm)
      (ofMembers_cons (field?_optional (by decide) (meant_flag c.debug) eq_comm) Iff.rfl)))).trans ?_
  exact ⟨fun ⟨hl, h₁, h₂, h₃, _⟩ => .object hl h₁ h₂ h₃,
    fun | .object hl h₁ h₂ h₃ => ⟨hl, h₁, h₂, h₃, rfl⟩⟩

/-! ### Members that stand twice -/

/-- Two members have the same key, which is one of the given ones. -/
def Repeats (keys : List String) (members : Members) : Prop :=
  ∃ key ∈ keys, 2 ≤ (members.under key).length

/-- What is given for a field, under its key or at its place. -/
def given (key : String) (place : Nat) : Source → List Source
  | .object members => members.under key
  | .array items => items.sources[place]?.toList
  | _ => []

inductive ParameterRepeats : Source → Prop
  | here {members : Members} : Repeats ["type", "name"] members → ParameterRepeats (.object members)

inductive SignatureRepeats : Source → Prop
  | here {members : Members} : Repeats ["name", "resultType", "parameters"] members →
      SignatureRepeats (.object members)
  | parameter {source parameter : Source} {items : Items} :
      .array items ∈ given "parameters" 2 source → parameter ∈ items.sources →
      ParameterRepeats parameter → SignatureRepeats source

/-- At some level of a schema, a member is repeated that is known there. -/
inductive SchemaRepeats : Source → Prop
  | here {members : Members} : Repeats ["baseName", "namespace", "instructions"] members →
      SchemaRepeats (.object members)
  | instruction {source signature : Source} {items : Items} :
      .array items ∈ given "instructions" 2 source → signature ∈ items.sources →
      SignatureRepeats signature → SchemaRepeats source

theorem Once.atMostOnce (h : Once spells sources) : AtMostOnce False spells sources := by
  cases h with
  | once hs => exact .once hs

namespace AtMostOnce

theorem length_le (h : AtMostOnce absent spells sources) : sources.length ≤ 1 := by
  cases h with
  | missing _ => exact Nat.zero_le 1
  | once _ => exact Nat.le_refl 1

theorem of_mem (h : AtMostOnce absent spells sources) (hs : source ∈ sources) : spells source := by
  cases h with
  | missing _ => cases hs
  | once h =>
    obtain rfl := List.mem_singleton.mp hs
    exact h

end AtMostOnce

theorem Each.exists_of_mem {spells : α → Source → Prop} {as : List α} {items : Items}
    (h : Each spells as (.array items)) (hs : source ∈ items.sources) : ∃ a, spells a source := by
  obtain ⟨h⟩ := h
  generalize items.sources = sources at h hs
  induction h with
  | nil => cases hs
  | @cons a _ _ _ ha _ ih =>
    obtain rfl | hs := List.mem_cons.mp hs
    · exact ⟨a, ha⟩
    · exact ih hs

theorem not_repeats {keys : List String} {members : Members}
    (h : ∀ key ∈ keys, (members.under key).length ≤ 1) : ¬ Repeats keys members := by
  rintro ⟨key, hk, hl⟩
  exact absurd (h key hk) (Nat.not_le.mpr hl)

theorem OfParameter.not_repeats {p : Parameter} (h : OfParameter p source) :
    ¬ ParameterRepeats source := by
  rintro ⟨hr⟩
  cases h with
  | object _ h₁ h₂ =>
    refine Spelling.not_repeats ?_ hr
    simp only [List.forall_mem_cons]
    exact ⟨h₁.atMostOnce.length_le, h₂.atMostOnce.length_le, nofun⟩

theorem OfSignature.given_parameters {s : Signature} (h : OfSignature s source) :
    ∀ parameters ∈ given "parameters" 2 source, Each OfParameter s.parameters parameters := by
  intro parameters hp
  cases h with
  | object _ _ _ h₃ => exact h₃.of_mem hp
  | array hs _ _ h₃ =>
    rw [given, hs] at hp
    cases h₃ with
    | missing _ => cases hp
    | once h₃ =>
      obtain rfl := List.mem_singleton.mp hp
      exact h₃

theorem OfSignature.not_repeats {s : Signature} (h : OfSignature s source) :
    ¬ SignatureRepeats source := by
  intro hr
  cases hr with
  | here hr =>
    cases h with
    | object _ h₁ h₂ h₃ =>
      refine Spelling.not_repeats ?_ hr
      simp only [List.forall_mem_cons]
      exact ⟨h₁.atMostOnce.length_le, h₂.atMostOnce.length_le, h₃.length_le, nofun⟩
  | parameter hg hm hr =>
    obtain ⟨p, hp⟩ := (h.given_parameters _ hg).exists_of_mem hm
    exact hp.not_repeats hr

theorem OfSchema.given_instructions {s : Schema} (h : OfSchema s source) :
    ∀ instructions ∈ given "instructions" 2 source, Each OfSignature s.instructions instructions := by
  intro instructions hi
  cases h with
  | object _ _ _ h₃ => exact h₃.atMostOnce.of_mem hi
  | array hs _ _ h₃ =>
    rw [given, hs] at hi
    obtain rfl := List.mem_singleton.mp hi
    exact h₃

theorem OfSchema.not_repeats {s : Schema} (h : OfSchema s source) : ¬ SchemaRepeats source := by
  intro hr
  cases hr with
  | here hr =>
    cases h with
    | object _ h₁ h₂ h₃ =>
      refine Spelling.not_repeats ?_ hr
      simp only [List.forall_mem_cons]
      exact ⟨h₁.atMostOnce.length_le, h₂.length_le, h₃.atMostOnce.length_le, nofun⟩
  | instruction hg hm hr =>
    obtain ⟨signature, hs⟩ := (h.given_instructions _ hg).exists_of_mem hm
    exact hs.not_repeats hr

theorem OfConfig.not_repeats {c : RunConfig} {members : Members} (h : OfConfig c (.object members)) :
    ¬ Repeats ["yield_interval", "step_limit", "debug"] members := by
  obtain ⟨_, h₁, h₂, h₃⟩ := h
  refine Spelling.not_repeats ?_
  simp only [List.forall_mem_cons]
  exact ⟨h₁.length_le, h₂.length_le, h₃.length_le, nofun⟩

/-! ### Reading -/

/-- Every value of the format stands for a value of the type. -/
structure Exact (α : Type) [Document α] : Prop extends Document.Lawful α where
  toValue_ofValue : ∀ v : (Document.format α).Value, Document.toValue (Document.ofValue v : α) = v

theorem exact_parameter : Exact Parameter :=
  ⟨Document.lawful_parameter, fun _ => rfl⟩

theorem exact_config : Exact RunConfig :=
  ⟨Document.lawful_runConfig, fun _ => rfl⟩

theorem Exact.map_map [Document α] (h : Exact α) (values : List (Document.format α).Value) :
    (values.map (Document.ofValue (α := α))).map Document.toValue = values := by
  rw [List.map_map]
  exact (List.map_congr_left fun v _ => h.toValue_ofValue v).trans (List.map_id values)

theorem exact_signature : Exact Signature where
  toLawful := Document.lawful_signature
  toValue_ofValue v := congrArg (fun parameters => (v.1, v.2.1, parameters, ()))
    (exact_parameter.map_map v.2.2.1)

theorem exact_schema : Exact Schema where
  toLawful := Document.lawful_schema
  toValue_ofValue v := congrArg (fun instructions => (v.1, v.2.1, instructions, ()))
    (exact_signature.map_map v.2.2.1)

section

variable [Document α] (before after : Space)

theorem Exact.read_document (h : Exact α) (a : α) (source : Source) :
    Document.read (source.document before after) = .ok a ↔
      (Document.format α).value? source = some (Document.toValue a) := by
  rw [← Format.ofText_document h.isDistinct source before after, Document.read]
  cases Format.ofText (Document.format α) (source.document before after) with
  | error e => constructor <;> intro h <;> cases h
  | ok v =>
    change Except.ok _ = Except.ok a ↔ some v = some _
    rw [Except.ok.injEq, Option.some_inj]
    constructor
    · rintro rfl
      exact (h.toValue_ofValue v).symm
    · rintro rfl
      exact h.ofValue_toValue a

private theorem exists_error_of_ne_ok {ε β : Type} {r : Except ε β} (h : ∀ b, r ≠ .ok b) :
    ∃ e, r = .error e := by
  cases r with
  | error e => exact ⟨e, rfl⟩
  | ok b => exact absurd rfl (h b)

end

theorem ofJson_eq_ok (s : Schema) (text : String) :
    Schema.ofJson text = .ok s ↔ Document.read text = .ok s ∧ s.validate = .ok () := by
  rw [Schema.ofJson]
  cases Document.read (α := Schema) text with
  | error fault =>
    constructor
    · intro h
      cases h
    · rintro ⟨h, _⟩
      cases h
  | ok t =>
    dsimp only
    rw [Except.ok.injEq]
    constructor
    · intro h
      cases ht : t.validate with
      | error e =>
        rw [ht] at h
        cases h
      | ok _ =>
        rw [ht] at h
        cases h
        exact ⟨rfl, ht⟩
    · rintro ⟨rfl, hv⟩
      rw [hv]
      rfl

/-- A schema is read from a document, or the settings of a run, however the document is spelled. -/
structure ReadFreely : Prop where
  /-- A valid schema is read from just those documents that spell it. -/
  schema : ∀ (s : Schema) (source : Source) (before after : Space),
    Schema.ofJson (source.document before after) = .ok s ↔ OfSchema s source ∧ s.validate = .ok ()
  config : ∀ (c : RunConfig) (members : Members) (before after : Space),
    RunConfig.ofJson ((Source.object members).document before after) = .ok c ↔
      OfConfig c (.object members)
  /-- Nothing is read where a known member is repeated, at any level. -/
  schemaRepeats : ∀ (source : Source) (before after : Space), SchemaRepeats source →
    ∃ fault, Schema.ofJson (source.document before after) = .error (.undecodable fault)
  configRepeats : ∀ (members : Members) (before after : Space),
    Repeats ["yield_interval", "step_limit", "debug"] members →
      ∃ e, RunConfig.ofJson ((Source.object members).document before after) = .error e

theorem read_freely : ReadFreely where
  schema s source before after := by
    rw [ofJson_eq_ok, exact_schema.read_document, meant_schema]
  config c members before after := by
    rw [← meant_config, ← exact_config.read_document before after, RunConfig.ofJson]
    cases Document.read (α := RunConfig) ((Source.object members).document before after) with
    | error fault => exact ⟨nofun, nofun⟩
    | ok c' => simp only [Except.mapError, Except.ok.injEq]
  schemaRepeats source before after hr := by
    obtain ⟨fault, hf⟩ := exists_error_of_ne_ok
      (r := Document.read (α := Schema) (source.document before after)) fun s hs =>
        ((meant_schema s source).mp ((exact_schema.read_document before after s source).mp hs)).not_repeats hr
    exact ⟨fault, by rw [Schema.ofJson, hf]⟩
  configRepeats members before after hr := by
    obtain ⟨fault, hf⟩ := exists_error_of_ne_ok
      (r := Document.read (α := RunConfig) ((Source.object members).document before after)) fun c hc =>
        ((meant_config c members).mp ((exact_config.read_document before after c _).mp hc)).not_repeats hr
    exact ⟨⟨fault⟩, by rw [RunConfig.ofJson, hf]; rfl⟩

/-! ### Odd spellings -/

/-- A text without any escapes. -/
def plainly (text : String) : List Json.Glyph :=
  text.toList.filterMap fun c =>
    if h : c ≠ '\x22' ∧ c ≠ '\\' ∧ 0x20 ≤ c.toNat then some (.plain c h) else none

def tight : Space :=
  ⟨[], .nil⟩

def wide (c : Char) (h : Json.isSpace c = true) : Space :=
  ⟨[c], fun _ hc => List.mem_singleton.mp hc ▸ h⟩

def digit (c : Char) (h : c.isDigit = true) : Json.Digits :=
  ⟨[c], fun _ hc => List.mem_singleton.mp hc ▸ h, List.cons_ne_nil _ _⟩

def member (key : String) (source : Source) (rest : Members) : Members :=
  .cons tight (plainly key) tight tight source tight rest

def items : List Source → Items
  | [] => .nil tight
  | source :: sources => .cons tight source tight (items sources)

/-- An instruction with a member that nobody knows and an escaped key, another one as an array, and no name
space in front of the base name; settings where an unknown member stands before a known one, and settings
with a member that stands twice. -/
theorem read_oddly :
    Schema.ofJson ("\x7b\x22instructions\x22:[\x7b\x22x\x22:[-1.5e+2,\x7b\x7d],\x22resultType\x22:\x22i\x22," ++
      "\x22n\\u0061me\x22:\x22F\x22\x7d,[\x22G\x22,\x22t\x22,[\x7b\x22name\x22:\x22a\x22,\x22type\x22:\x22u\x22\x7d]]]," ++
      "\x22namespace\x22: null,\x22baseName\x22:\x22B\x22\x7d\n") =
        .ok ⟨"B", none, [⟨"F", ⟨"i"⟩, []⟩, ⟨"G", ⟨"t"⟩, [⟨⟨"u"⟩, "a"⟩]⟩]⟩ ∧
      RunConfig.ofJson "\x7b\x22y\x22:[],\x22step_limit\x22:7\x7d" = .ok ⟨none, some 7, false⟩ ∧
      ∃ e, RunConfig.ofJson "\x7b\x22debug\x22:true,\x22debug\x22:[]\x7d" = .error e := by
  let said (text : String) : Source := .string (plainly text)
  let number : Numeral := ⟨true, digit '1' rfl, by decide, some (digit '5' rfl),
    some ⟨'e', .inl rfl, ['+'], .inr (.inl rfl), digit '2' rfl⟩⟩
  let escaped : List Json.Glyph := plainly "n" ++ .code '0' '0' '6' '1' 0x61 rfl :: plainly "me"
  let parameter := Source.object (member "name" (said "a") (member "type" (said "u") (.nil tight)))
  let first := Source.object (member "x" (.array (items [.number number, .object (.nil tight)]))
    (member "resultType" (said "i") (.cons tight escaped tight tight (said "F") tight (.nil tight))))
  let second := Source.array (items [said "G", said "t", .array (items [parameter])])
  let schema := Source.object (member "instructions" (.array (items [first, second]))
    (.cons tight (plainly "namespace") tight (wide ' ' rfl) .null tight
      (member "baseName" (said "B") (.nil tight))))
  have hp : OfParameter ⟨⟨"u"⟩, "a"⟩ parameter := .object rfl (.once (.string rfl)) (.once (.string rfl))
  have hf : OfSignature ⟨"F", ⟨"i"⟩, []⟩ first :=
    .object rfl (.once (.string rfl)) (.once (.string rfl)) (.missing rfl)
  have hs : OfSignature ⟨"G", ⟨"t"⟩, [⟨⟨"u"⟩, "a"⟩]⟩ second :=
    .array rfl (.string rfl) (.string rfl) (.once (.array (.cons hp .nil)))
  have hschema : OfSchema ⟨"B", none, [⟨"F", ⟨"i"⟩, []⟩, ⟨"G", ⟨"t"⟩, [⟨⟨"u"⟩, "a"⟩]⟩]⟩ schema :=
    .object rfl (.once (.string rfl)) (.once .absent) (.once (.array (.cons hf (.cons hs .nil))))
  refine ⟨?_, ?_, ?_⟩
  -- The texts are those of the sources, character by character.
  · refine (congrArg Schema.ofJson (show _ = schema.document tight (wide '\n' rfl) from ?_)).trans
      ((read_freely.schema _ schema tight (wide '\n' rfl)).mpr ⟨hschema, ?_⟩)
    · decide +kernel
    · decide +kernel
  · exact (read_freely.config _ (member "y" (.array (items [])) (member "step_limit"
      (.number ⟨false, digit '7' rfl, by decide, none, none⟩) (.nil tight))) tight tight).mpr
        (.object rfl (.missing rfl) (.once (.present (.number ⟨rfl, rfl, rfl⟩ rfl (by decide))))
          (.missing rfl))
  · exact read_freely.configRepeats (member "debug" (.flag true) (member "debug" (.array (items []))
      (.nil tight))) tight tight ⟨"debug", by decide, Nat.le_refl 2⟩

end Spelling

end Trampoline
