import Trampoline.Proofs.Json.Reading
import Trampoline.Proofs.Json.Literals

/-!
What a source means. A format gives a source a value, or none; the spelling of the source does not
matter, nor the order of members, nor members that nobody knows. Reading goes through the members one
by one instead, and comes to the same result: whichever of them comes next, it may as well be put in
front.
-/
namespace Trampoline.Json

/-! ### Single values -/

namespace Source

def text? : Source → Option String
  | .string glyphs => said? glyphs
  | _ => none

def flag? : Source → Option Bool
  | .flag value => some value
  | _ => none

def word? : Source → Option Nat
  | .number numeral => numeral.word?
  | _ => none

/-- The choice made by the key of an object, if the key holds nothing and is the only one. -/
def sole? {α : Type} (choice : α) : Source → Members → Option α
  | .null, .nil _ => some choice
  | _, _ => none

/-- A choice is its name, or an object whose one key is the name and holds nothing. -/
def choice? (first : String) (others : List String) : Source → Option (Fin (others.length + 1))
  | .string glyphs => (said? glyphs).bind fun name => findChoice name (first :: others)
  | .object (.cons _ key _ _ source _ rest) =>
    ((said? key).bind fun name => findChoice name (first :: others)).bind fun i => source.sole? i rest
  | _ => none

end Source

/-! ### Values of formats -/

/-- The value of a field that is missing, if it may be. -/
def Format.fallback (format : Format) (presence : Presence) : Option format.Value :=
  if presence = .required then none else some format.neutral

mutual

/-- The value that a source stands for in a format. -/
def Format.value? : (format : Format) → Source → Option format.Value
  | .text, source => source.text?
  | .flag, source => source.flag?
  | .word _, source => source.word?
  | .choice first others, source => source.choice? first others
  | .optional format, source =>
    match source with
    | .null => some none
    | source => (format.value? source).map some
  | .sequence format, source =>
    match source with
    | .array items => items.sources.mapM format.value?
    | _ => none
  | .record _ fields, source =>
    match source with
    | .array items => fields.ofItems items.sources
    | .object members => if members.areLegible then fields.ofMembers members else none
    | _ => none

/-- The fields of a record in their order. Only fields at the end may be missing. -/
def Fields.ofItems : (fields : Fields) → List Source → Option fields.Values
  | .nil, [] => some ()
  | .nil, _ :: _ => none
  | .cons _ presence format rest, [] =>
    (format.fallback presence).bind fun value =>
      (rest.ofItems []).map fun values => (value, values)
  | .cons _ _ format rest, source :: sources =>
    (format.value? source).bind fun value =>
      (rest.ofItems sources).map fun values => (value, values)

/-- The fields of a record by their keys. No key may stand twice. -/
def Fields.ofMembers : (fields : Fields) → Members → Option fields.Values
  | .nil, _ => some ()
  | .cons key presence format rest, members =>
    (match members.under key with
      | [] => format.fallback presence
      | [source] => format.value? source
      | _ :: _ :: _ => none).bind fun value =>
        (rest.ofMembers members).map fun values => (value, values)

end

theorem Format.value?_optional (format : Format) {source : Source} (h : source ≠ .null) :
    (Format.optional format).value? source = (format.value? source).map some := by
  cases source with
  | null => exact absurd rfl h
  | _ => rfl

/-! ### One member after the other -/

namespace Format

/-- Takes in a value for a field, if there is none so far. -/
def offer (format : Format) (source : Source) : Option format.Value → Option (Option format.Value)
  | some _ => none
  | none => (format.value? source).map some

/-- The value of a field, if it has one, from its value so far and what else stands under its key. -/
def settle (format : Format) : Option format.Value → List Source → Option (Option format.Value)
  | value, [] => some value
  | some _, _ :: _ => none
  | none, [source] => (format.value? source).map some
  | none, _ :: _ :: _ => none

theorem settle_cons (format : Format) (value : Option format.Value) (source : Source)
    (sources : List Source) :
    format.settle value (source :: sources) =
      (format.offer source value).bind fun value => format.settle value sources := by
  cases value with
  | some value => rfl
  | none =>
    cases sources with
    | nil => cases h : format.value? source <;> simp only [settle, offer, h] <;> rfl
    | cons _ _ =>
      rw [offer]
      cases format.value? source <;> rfl

end Format

namespace Fields

/-- Takes in one member. It is passed over if no field has its key. -/
def put : (fields : Fields) → (key : String) → Source → fields.Partial → Option fields.Partial
  | .nil, _, _, _ => some ()
  | .cons name _ format rest, key, source, (value, values) =>
    if name = key then (format.offer source value).map fun value => (value, values)
    else (rest.put key source values).map fun values => (value, values)

/-- What was read so far, together with what some members hold. -/
def merge : (fields : Fields) → fields.Partial → Members → Option fields.Partial
  | .nil, _, _ => some ()
  | .cons key _ format rest, (value, values), members =>
    (format.settle value (members.under key)).bind fun value =>
      (rest.merge values members).map fun values => (value, values)

theorem put_of_notMem : ∀ {fields : Fields} {key : String}, key ∉ fields.keys →
    ∀ (source : Source) (soFar : fields.Partial), fields.put key source soFar = some soFar
  | .nil, _, _, _, _ => rfl
  | .cons name _ format rest, key, h, source, (value, values) => by
    obtain ⟨hn, hr⟩ := not_or.mp (mt List.mem_cons.mpr h)
    rw [put, if_neg (Ne.symm hn), put_of_notMem hr, Option.map_some]

theorem merge_nil (inner : Space) : ∀ {fields : Fields} (soFar : fields.Partial),
    fields.merge soFar (.nil inner) = some soFar
  | .nil, _ => rfl
  | .cons _ _ _ rest, (_, values) => by
    rw [merge, Members.under, Format.settle, Option.bind_some, merge_nil inner values]
    rfl

/-- The next member may be taken in first. -/
theorem merge_cons (before : Space) {glyphs : List Glyph} {key : String}
    (hk : said? glyphs = some key) (gap gap' : Space) (source : Source) (after : Space)
    (members : Members) : ∀ {fields : Fields}, fields.keys.Nodup → ∀ (soFar : fields.Partial),
    fields.merge soFar (.cons before glyphs gap gap' source after members) =
      (fields.put key source soFar).bind fun soFar => fields.merge soFar members
  | .nil, _, _ => rfl
  | .cons name _ format rest, hd, (value, values) => by
    obtain ⟨hn, hd⟩ := List.nodup_cons.mp hd
    have ih := merge_cons before hk gap gap' source after members hd values
    by_cases he : name = key
    · subst he
      -- The other fields have other keys.
      rw [put_of_notMem hn, Option.bind_some] at ih
      rw [merge, Members.under, if_pos hk, format.settle_cons, ih, put, if_pos rfl, Option.bind_map]
      cases format.offer source value <;> rfl
    · have hu : ¬ said? glyphs = some name := fun h => he (Option.some.inj (h.symm.trans hk))
      rw [merge, Members.under, if_neg hu, ih, put, if_neg he, Option.bind_map]
      cases rest.put key source values with
      | none => cases format.settle value (members.under name) <;> rfl
      | some values => rfl

theorem complete_cons (key : String) (presence : Presence) (format : Format) (rest : Fields)
    (value : Option format.Value) (values : rest.Partial) :
    ((cons key presence format rest).complete (value, values)).toOption =
      (value.or (format.fallback presence)).bind fun value =>
        (rest.complete values).toOption.map fun values => (value, values) := by
  cases value with
  | some value =>
    simp only [complete]
    cases rest.complete values <;> rfl
  | none =>
    cases presence with
    | required => rfl
    | _ =>
      simp only [complete]
      cases rest.complete values <;> rfl

/-- A field is complete by itself, whatever the others are. -/
theorem bind_complete (key : String) (presence : Presence) (format : Format) (rest : Fields)
    (value : Option (Option format.Value)) (soFar : Option rest.Partial) :
    ((value.bind fun value => soFar.map fun values => (value, values)).bind fun soFar =>
        ((cons key presence format rest).complete soFar).toOption) =
      (value.bind fun value => value.or (format.fallback presence)).bind fun value =>
        (soFar.bind fun soFar => (rest.complete soFar).toOption).map fun values => (value, values) := by
  cases value with
  | none => rfl
  | some value =>
    cases soFar with
    | none => cases h : value.or (format.fallback presence) <;> simp only [Option.bind, Option.map, h]
    | some values => exact complete_cons key presence format rest value values

/-- Members that are taken in one by one give what they stand for together. -/
theorem complete_merge (members : Members) : ∀ fields : Fields,
    ((fields.merge fields.unread members).bind fun soFar => (fields.complete soFar).toOption) =
      fields.ofMembers members
  | .nil => rfl
  | .cons key presence format rest => by
    rw [ofMembers, ← complete_merge members rest]
    refine (bind_complete key presence format rest _ _).trans ?_
    congr 1
    cases members.under key with
    | nil => rfl
    | cons source sources =>
      cases sources with
      | nil => cases h : format.value? source <;> simp only [Format.settle, h] <;> rfl
      | cons _ _ => rfl

end Fields

end Trampoline.Json
