import Mathlib.Data.List.Nodup
import Mathlib.Data.List.TakeWhile
import Mathlib.Logic.Equiv.Defs
import Trampoline.Proofs.Observation.Transcripts
import Trampoline.Proofs.Renderings.Delimited
import Trampoline.Scenario.Op

/-!
Sets of instructions that are given by a declaration: the names of the instructions and, for each of
them, the names and kinds of its parameters. The text of such an instruction tells the instruction, so
that records can be compared by their texts.
-/
namespace Trampoline

/-- The kinds of parameters. -/
inductive Kind where
  | text
  | integer (signed : Bool) (bits : Nat)
  | list (item : Kind)
  | option (item : Kind)

namespace Kind

@[reducible] def Value : Kind → Type
  | text => String
  | integer _ bits => BitVec bits
  | list item => List item.Value
  | option item => Option item.Value

/-- The number that a word stands for. -/
def number (signed : Bool) {bits : Nat} (word : BitVec bits) : Int :=
  if signed then word.toInt else word.toNat

def rendering : (kind : Kind) → kind.Value → Rendering
  | text, s => .quoted s
  | integer signed _, word => .bare (toString (number signed word))
  | list item, items => .list (items.map item.rendering)
  | option item, o => .option (o.map item.rendering)

theorem number_injective (signed : Bool) (bits : Nat) :
    Function.Injective (number signed : BitVec bits → Int) := by
  intro a b h
  cases signed with
  | true => exact BitVec.toInt_inj.mp h
  | false => exact BitVec.toNat_inj.mp (Int.ofNat.inj h)

theorem delimited (kind : Kind) : Delimited fun value => (kind.rendering value).compactChars := by
  induction kind with
  | text =>
    simp only [rendering, Rendering.compactChars]
    exact .quoted
  | integer signed bits =>
    simp only [rendering, Rendering.compactChars]
    exact Delimited.int.comap (number_injective signed bits)
  | list item ih => exact ih.list
  | option item ih => exact ih.option

end Kind

namespace Declaration

/-- A parameter in a declaration, with its type as it is written. -/
structure Field where
  name : String
  type : String
  kind : Kind

/-- The values of parameters. -/
@[reducible] def Arguments : List Field → Type
  | [] => Unit
  | field :: fields => field.kind.Value × Arguments fields

/-- An instruction in a declaration, with the type of its result as it is written. -/
structure Variant where
  name : String
  fields : List Field
  result : String

end Declaration

/-- The declaration of a set of instructions. -/
structure Declaration where
  baseName : String
  variants : List Declaration.Variant
  nodup : (variants.map Declaration.Variant.name).Nodup
  /-- A name is a single word. -/
  word : ∀ variant ∈ variants, ' ' ∉ variant.name.toList

namespace Declaration

def Arguments.renderings : (fields : List Field) → Arguments fields → List (String × Rendering)
  | [], () => []
  | field :: fields, (value, values) =>
    (field.name, field.kind.rendering value) :: renderings fields values

/-- An instruction of a declared set: which one it is, and its parameters. -/
structure Value (d : Declaration) where
  variant : Fin d.variants.length
  arguments : Arguments d.variants[variant].fields

variable {d : Declaration}

instance : InstructionSet d.Value where
  schema := .declare d.baseName (d.variants.map fun variant =>
    (variant.name, variant.fields.map fun field => (field.name, field.type), variant.result))
  name i := d.variants[i.variant].name
  rendering i := .record d.variants[i.variant].name (i.arguments.renderings)

namespace Arguments

private theorem later_inj (fields : List Field) {a b : Arguments fields} {s t : List Char}
    (hs : Stops s) (ht : Stops t)
    (h : Rendering.later ((renderings fields a).map Rendering.fieldChars) ++ s =
      Rendering.later ((renderings fields b).map Rendering.fieldChars) ++ t) : a = b ∧ s = t := by
  induction fields with
  | nil => exact ⟨rfl, h⟩
  | cons field fields ih =>
    obtain ⟨value, values⟩ := a
    obtain ⟨value', values'⟩ := b
    simp only [renderings, Rendering.later, Rendering.fieldChars, List.map_cons, List.flatMap_cons,
      List.cons_append, List.append_assoc, List.cons.injEq, true_and,
      List.append_cancel_left_eq] at h
    obtain ⟨rfl, hr⟩ := field.kind.delimited.tells (Rendering.stops_later _ hs)
      (Rendering.stops_later _ ht) h
    obtain ⟨rfl, hst⟩ := ih hr
    exact ⟨rfl, hst⟩

/-- The parameters of an instruction can be told from its text. -/
theorem record_inj (name : String) (fields : List Field) {a b : Arguments fields}
    (h : (Rendering.record name (renderings fields a)).compactChars =
      (Rendering.record name (renderings fields b)).compactChars) : a = b := by
  cases fields with
  | nil => rfl
  | cons field fields =>
    obtain ⟨value, values⟩ := a
    obtain ⟨value', values'⟩ := b
    simp only [renderings, Rendering.compactChars, Rendering.compactFields_cons, List.append_assoc,
      List.append_cancel_left_eq] at h
    have hend : Stops " \x7d".toList := stops_cons rfl _
    obtain ⟨rfl, hr⟩ := field.kind.delimited.tells (Rendering.stops_later _ hend)
      (Rendering.stops_later _ hend) h
    obtain ⟨rfl, -⟩ := later_inj fields hend hend hr
    rfl

end Arguments

/-- The name of an instruction is the first word of its text. -/
private theorem takeWhile_record {name : String} (h : ' ' ∉ name.toList)
    (fields : List (String × Rendering)) :
    (Rendering.record name fields).compactChars.takeWhile (· != ' ') = name.toList := by
  have hw : ∀ c ∈ name.toList, (c != ' ') = true := fun c hc =>
    bne_iff_ne.mpr fun he => h (he ▸ hc)
  cases fields with
  | nil =>
    rw [Rendering.compactChars]
    exact List.takeWhile_eq_self_iff.mpr hw
  | cons field fields =>
    rw [Rendering.compactChars, List.append_assoc, List.takeWhile_append_of_pos hw]
    exact List.append_nil _

theorem rendering_inj {x y : d.Value}
    (h : (InstructionSet.rendering x).compactChars = (InstructionSet.rendering y).compactChars) :
    x = y := by
  obtain ⟨k, a⟩ := x
  obtain ⟨m, b⟩ := y
  have hn : d.variants[k.val].name.toList = d.variants[m.val].name.toList := by
    rw [← takeWhile_record (d.word _ (List.getElem_mem k.isLt)) a.renderings,
      ← takeWhile_record (d.word _ (List.getElem_mem m.isLt)) b.renderings]
    exact congrArg _ h
  have hk : k.val < (d.variants.map Variant.name).length := by simp
  have hm : m.val < (d.variants.map Variant.name).length := by simp
  have hkm : (d.variants.map Variant.name)[k.val] = (d.variants.map Variant.name)[m.val] := by
    rw [List.getElem_map, List.getElem_map]
    exact String.toList_inj.mp hn
  obtain rfl := Fin.ext ((List.Nodup.getElem_inj_iff d.nodup).mp hkm)
  exact congrArg _ (Arguments.record_inj _ _ h)

end Declaration

/-- A set of instructions is declared if its instructions are those of a declaration, with their names
and their texts. -/
structure Declared (I : Type) [InstructionSet I] where
  declaration : Declaration
  values : I ≃ declaration.Value
  schema : InstructionSet.schema I = InstructionSet.schema declaration.Value
  name : ∀ i, InstructionSet.name i = InstructionSet.name (values i)
  rendering : ∀ i, InstructionSet.rendering i = InstructionSet.rendering (values i)

def Declaration.declared (d : Declaration) : Declared d.Value where
  declaration := d
  values := .refl _
  schema := rfl
  name _ := rfl
  rendering _ := rfl

namespace Scenario.Op

/-- The instructions of scenarios as they are declared. -/
def declaration : Declaration where
  baseName := "Ops"
  variants := [
    ⟨"Get", [⟨"key", "String", .text⟩], "Option<i64>"⟩,
    ⟨"Put", [⟨"key", "String", .text⟩, ⟨"value", "i64", .integer true 64⟩], "Option<i64>"⟩,
    ⟨"Emit", [⟨"text", "String", .text⟩], "()"⟩,
    ⟨"Tick", [], "i64"⟩,
    ⟨"Add", [⟨"a", "i64", .integer true 64⟩, ⟨"b", "i64", .integer true 64⟩], "i64"⟩,
    ⟨"Batch", [⟨"items", "Vec<i64>", .list (.integer true 64)⟩,
      ⟨"label", "Option<String>", .option .text⟩], "Vec<i64>"⟩]
  nodup := by decide
  word := by decide

def toDeclared : Op → declaration.Value
  | get key => ⟨⟨0, by decide⟩, key, ()⟩
  | put key value => ⟨⟨1, by decide⟩, key, value.toBitVec, ()⟩
  | emit text => ⟨⟨2, by decide⟩, text, ()⟩
  | tick => ⟨⟨3, by decide⟩, ()⟩
  | add a b => ⟨⟨4, by decide⟩, a.toBitVec, b.toBitVec, ()⟩
  | batch items label => ⟨⟨5, by decide⟩, items.map Int64.toBitVec, label, ()⟩

def ofDeclared : declaration.Value → Op
  | ⟨⟨0, _⟩, key, ()⟩ => get key
  | ⟨⟨1, _⟩, key, value, ()⟩ => put key (.ofBitVec value)
  | ⟨⟨2, _⟩, text, ()⟩ => emit text
  | ⟨⟨3, _⟩, ()⟩ => tick
  | ⟨⟨4, _⟩, a, b, ()⟩ => add (.ofBitVec a) (.ofBitVec b)
  | ⟨⟨5, _⟩, items, label, ()⟩ => batch (items.map Int64.ofBitVec) label

def declared : Declared Op where
  declaration := declaration
  values := {
    toFun := toDeclared
    invFun := ofDeclared
    left_inv
      | get _ => rfl
      | put _ _ => rfl
      | emit _ => rfl
      | tick => rfl
      | add _ _ => rfl
      | batch items label => by
        have hi : (items.map Int64.toBitVec).map Int64.ofBitVec = items :=
          List.map_map.trans (List.map_id items)
        simp only [toDeclared, ofDeclared, hi]
    right_inv
      | ⟨⟨0, _⟩, _, ()⟩ => rfl
      | ⟨⟨1, _⟩, _, _, ()⟩ => rfl
      | ⟨⟨2, _⟩, _, ()⟩ => rfl
      | ⟨⟨3, _⟩, ()⟩ => rfl
      | ⟨⟨4, _⟩, _, _, ()⟩ => rfl
      | ⟨⟨5, _⟩, items, label, ()⟩ => by
        have hi : (items.map Int64.ofBitVec).map Int64.toBitVec = items :=
          List.map_map.trans (List.map_id items)
        simp only [toDeclared, ofDeclared, hi] }
  schema := rfl
  name
    | get _ => rfl
    | put _ _ => rfl
    | emit _ => rfl
    | tick => rfl
    | add _ _ => rfl
    | batch _ _ => rfl
  rendering
    | get _ => rfl
    | put _ _ => rfl
    | emit _ => rfl
    | tick => rfl
    | add _ _ => rfl
    | batch items label => by
      have hi : (items.map Int64.toBitVec).map (Kind.integer true 64).rendering =
          items.map number := List.map_map
      change _ = Rendering.record "Batch" [("items", .list (_ : List Rendering)), _]
      rw [hi]
      rfl

end Scenario.Op

/-- A call adds one entry to the record, with the text of its instruction. -/
theorem Handler.recorded_begun {I V H : Type} [InstructionSet I] (handler : Handler I V H) (i : I)
    (place : Recorded H) (cell : Cell V) :
    ∃ entry, entry.detail = InstructionSet.detail i ∧
      (handler.recorded.poll i 0 place cell).state.log.toList = place.log.toList ++ [entry] := by
  obtain ⟨inner, log⟩ := place
  have hpush : (log.push (.begun i)).toList = log.toList ++ [.begun i] := Array.toList_push
  rw [recorded_poll, if_pos rfl]
  dsimp only
  split
  · exact ⟨{ LogEntry.begun i with succeeded := true }, rfl, toList_markLast hpush⟩
  · exact ⟨.begun i, rfl, hpush⟩
  · exact ⟨.begun i, rfl, hpush⟩

namespace Declared

variable {I V V' H H' : Type} [InstructionSet I]

theorem detail_inj (set : Declared I) : Function.Injective (InstructionSet.detail (I := I)) := by
  intro x y h
  rw [InstructionSet.detail, InstructionSet.detail, set.rendering, set.rendering] at h
  exact set.values.injective (Declaration.rendering_inj (String.ofList_injective h))

/-- The text in a record identifies the instruction, whatever the handlers, their records and the cells
are. -/
theorem recorded_identifies (set : Declared I) (handler : Handler I V H) (handler' : Handler I V' H')
    (place : Recorded H) (place' : Recorded H') (cell : Cell V) (cell' : Cell V') (x y : I) :
    ∃ entry entry',
      (handler.recorded.poll x 0 place cell).state.log.toList = place.log.toList ++ [entry] ∧
      (handler'.recorded.poll y 0 place' cell').state.log.toList = place'.log.toList ++ [entry'] ∧
      (entry.detail = entry'.detail ↔
        (set.values x).variant = (set.values y).variant ∧
          HEq (set.values x).arguments (set.values y).arguments) := by
  obtain ⟨entry, hd, hlog⟩ := handler.recorded_begun x place cell
  obtain ⟨entry', hd', hlog'⟩ := handler'.recorded_begun y place' cell'
  refine ⟨entry, entry', hlog, hlog', ?_⟩
  rw [hd, hd', set.detail_inj.eq_iff, ← set.values.injective.eq_iff]
  generalize set.values x = a
  generalize set.values y = b
  cases a
  cases b
  exact Declaration.Value.mk.injEq .. ▸ Iff.rfl

open Scenario in
/-- Text that looks like a parameter is not taken for one. -/
example : InstructionSet.detail (Op.put "a\", value: 1 \x7d" 2) =
    "Put \x7b key: \"a\\\", value: 1 \x7d\", value: 2 \x7d" := by
  decide +kernel

end Declared

end Trampoline
