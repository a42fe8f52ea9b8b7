import Mathlib.Data.List.DropRight
import Mathlib.Data.List.Nodup
import Mathlib.Data.Prod.Lex
import Trampoline.Schema.Validity

/-!
The violations of a schema, each at its spot, and the order of the spots. A schema without violations is
valid; of any other schema the violation at the first spot is reported.
-/
namespace Trampoline

namespace Text

/-- The characters that are left once the white space at both ends is taken away. -/
def trimmed (text : String) : List Char :=
  (text.toList.dropWhile isBlank).rdropWhile isBlank

theorem trimmed_eq_nil_iff {text : String} : trimmed text = [] ↔ allBlank text = true := by
  rw [trimmed, List.rdropWhile_eq_nil_iff, allBlank, List.all_eq_true]
  constructor
  · intro h c hc
    rw [← List.takeWhile_append_dropWhile (p := isBlank) (l := text.toList), List.mem_append] at hc
    exact hc.elim List.mem_takeWhile_imp (h c)
  · exact fun h c hc => h c ((List.dropWhile_sublist _).mem hc)

end Text

/-! ### Checking one member after the other -/

/-- A check reports the violation at the first spot, and none if there is none. -/
def Reports {S R : Type} [LT R] (rank : S → R) (wrong : S → SchemaError → Prop) :
    Except SchemaError Unit → Prop
  | .ok () => ∀ spot e, ¬ wrong spot e
  | .error e => ∃ spot, wrong spot e ∧ ∀ earlier e', rank earlier < rank spot → ¬ wrong earlier e'

/-- Where spots are in a row and have at most one violation each, nothing else can be reported. -/
theorem Reports.iff {S R : Type} [LinearOrder R] {rank : S → R} {wrong : S → SchemaError → Prop}
    {result : Except SchemaError Unit} (h : Reports rank wrong result)
    (hr : Function.Injective rank)
    (hw : ∀ {spot e e'}, wrong spot e → wrong spot e' → e = e') :
    (result = .ok () ↔ ∀ spot e, ¬ wrong spot e) ∧
      ∀ e, result = .error e ↔
        ∃ spot, wrong spot e ∧ ∀ earlier e', rank earlier < rank spot → ¬ wrong earlier e' := by
  cases result with
  | ok _ =>
    refine ⟨iff_of_true rfl h, fun e => iff_of_false nofun ?_⟩
    rintro ⟨spot, hs, _⟩
    exact h spot e hs
  | error e =>
    obtain ⟨spot, hs, hfirst⟩ := h
    refine ⟨iff_of_false nofun fun h => h spot e hs, fun e' => ⟨fun he => ?_, ?_⟩⟩
    · cases he
      exact ⟨spot, hs, hfirst⟩
    · rintro ⟨spot', hs', hfirst'⟩
      obtain hlt | heq | hgt := lt_trichotomy (rank spot) (rank spot')
      · exact absurd hs (hfirst' spot e hlt)
      · obtain rfl := hr heq
        rw [hw hs hs']
      · exact absurd hs' (hfirst spot' e' hgt)

section Members

variable {α : Type} (check : Nat → α → Except SchemaError Unit) (name : α → String)
  (repeated : α → SchemaError)

/-- Checks the members of a list from the given position on: each by itself, and then for a name that is
among those in `seen`. -/
def checkMembers : (seen : List String) → (position : Nat) → List α → Except SchemaError Unit
  | _, _, [] => .ok ()
  | seen, position, a :: rest =>
    match check position a with
    | .error e => .error e
    | .ok () =>
      if name a ∈ seen then .error (repeated a)
      else checkMembers (name a :: seen) (position + 1) rest

/-- Nothing is wrong with the member at this place: it passes the check, and no earlier member has its
name. -/
def Clear (members : List α) (i : Nat) : Prop :=
  ∀ a, members[i]? = some a → check i a = .ok () ∧ name a ∉ (members.take i).map name

/-- What is reported of a list: the first member that is not clear. -/
def FirstUnclear (members : List α) : Except SchemaError Unit → Prop
  | .ok () => ∀ i, Clear check name members i
  | .error e => ∃ i a, members[i]? = some a ∧ (∀ k < i, Clear check name members k) ∧
      (check i a = .error e ∨
        check i a = .ok () ∧ name a ∈ (members.take i).map name ∧ repeated a = e)

/-- The names that were seen are those of the members before, and these are all clear. -/
private theorem firstUnclear_append (before rest : List α)
    (h : ∀ k < before.length, Clear check name (before ++ rest) k) :
    FirstUnclear check name repeated (before ++ rest)
      (checkMembers check name repeated (before.map name).reverse before.length rest) := by
  induction rest generalizing before with
  | nil =>
    intro i a ha
    refine h i ?_ a ha
    rw [List.append_nil] at ha
    exact (List.getElem?_eq_some_iff.mp ha).1
  | cons a rest ih =>
    have ha : (before ++ a :: rest)[before.length]? = some a := by simp
    have ht : (before ++ a :: rest).take before.length = before := List.take_left
    rw [checkMembers]
    cases hc : check before.length a with
    | error e => exact ⟨before.length, a, ha, h, .inl hc⟩
    | ok _ =>
      dsimp only
      split
      · rename_i hm
        refine ⟨before.length, a, ha, h, .inr ⟨hc, ?_, rfl⟩⟩
        rw [ht]
        exact List.mem_reverse.mp hm
      · rename_i hm
        have hnext := ih (before ++ [a])
        rw [List.map_append, List.reverse_append, List.length_append, ← List.append_cons] at hnext
        refine hnext fun k hk => ?_
        obtain hk | hk := Nat.lt_succ_iff_lt_or_eq.mp hk
        · exact h k hk
        · obtain rfl : k = before.length := hk
          intro b hb
          cases ha.symm.trans hb
          rw [ht]
          exact ⟨hc, fun hn => hm (List.mem_reverse.mpr hn)⟩

theorem firstUnclear_checkMembers (members : List α) :
    FirstUnclear check name repeated members (checkMembers check name repeated [] 0 members) :=
  firstUnclear_append check name repeated [] members nofun

end Members

/-- A name stands twice in a list exactly if it stands there after an earlier place. -/
theorem nodup_iff_not_mem_take {names : List String} :
    names.Nodup ↔ ∀ (i : Nat) (name : String), names[i]? = some name → name ∉ names.take i := by
  rw [List.nodup_iff_getElem?_ne_getElem?]
  constructor
  · intro h i name hn hm
    obtain ⟨k, hk, rfl⟩ := List.mem_take_iff_getElem.mp hm
    have hi : i < names.length := (List.getElem?_eq_some_iff.mp hn).1
    refine h k i (by omega) hi ?_
    rw [hn, List.getElem?_eq_getElem]
  · intro h i j hij hj he
    refine h j names[j] (List.getElem?_eq_getElem hj) ?_
    rw [List.mem_take_iff_getElem]
    refine ⟨i, by omega, ?_⟩
    rw [List.getElem?_eq_getElem hj, List.getElem?_eq_getElem (hij.trans hj)] at he
    exact Option.some.inj he

/-! ### One instruction -/

/-- What can be wrong with an instruction. -/
inductive Flaw where
  | emptyName
  | emptyResult
  /-- The parameter at this place has no name or no type. -/
  | incomplete (place : Nat)
  /-- The parameter at this place has the name of an earlier one. -/
  | repeatedParameter (place : Nat)
  /-- The instruction has the name of an earlier one. -/
  | repeatedName

/-- The order in which the flaws of an instruction come. Those of a parameter come before those of the
next one. -/
def Flaw.rank : Flaw → ℕ ×ₗ ℕ
  | emptyName => toLex (0, 0)
  | emptyResult => toLex (1, 0)
  | incomplete j => toLex (2, 2 * j)
  | repeatedParameter j => toLex (2, 2 * j + 1)
  | repeatedName => toLex (3, 0)

theorem Flaw.rank_injective : Function.Injective rank := by
  intro a b h
  cases a <;> cases b <;>
    simp only [rank, toLex_inj, Prod.mk.injEq] at h
  case incomplete.incomplete => congr; omega
  case repeatedParameter.repeatedParameter => congr; omega
  all_goals first | rfl | omega

namespace Signature

/-- What is wrong with an instruction by itself, which stands at the given position of its schema. -/
inductive Wrong (s : Signature) (position : Nat) : Flaw → SchemaError → Prop
  | emptyName : Text.trimmed s.name = [] → s.Wrong position .emptyName (.emptyInstructionName position)
  | emptyResult : Text.trimmed s.result.text = [] →
      s.Wrong position .emptyResult (.emptyResultType s.name)
  | incomplete {j : Nat} {p : Parameter} : s.parameters[j]? = some p →
      Text.trimmed p.name = [] ∨ Text.trimmed p.type.text = [] →
      s.Wrong position (.incomplete j) (.incompleteParameter s.name j)
  | repeatedParameter {j : Nat} {p : Parameter} : s.parameters[j]? = some p →
      p.name ∈ (s.parameters.take j).map Parameter.name →
      s.Wrong position (.repeatedParameter j) (.duplicateParameter s.name p.name)

variable {s : Signature} {position : Nat}

theorem Wrong.unique {flaw : Flaw} {e e' : SchemaError} (h : s.Wrong position flaw e)
    (h' : s.Wrong position flaw e') : e = e' := by
  cases h with
  | repeatedParameter hp _ =>
    cases h' with
    | repeatedParameter hq _ =>
      cases hp.symm.trans hq
      rfl
  | _ =>
    cases h'
    rfl

/-- The check of a single parameter. -/
def checkParameter (instruction : String) (position : Nat) (p : Parameter) :
    Except SchemaError Unit :=
  if p.isIncomplete then .error (.incompleteParameter instruction position) else .ok ()

theorem checkParameters_eq (instruction : String) (seen : List String) (position : Nat)
    (parameters : List Parameter) :
    checkParameters instruction seen position parameters =
      checkMembers (checkParameter instruction) Parameter.name
        (fun p => .duplicateParameter instruction p.name) seen position parameters := by
  induction parameters generalizing seen position with
  | nil => rfl
  | cons p rest ih =>
    rw [checkParameters, checkMembers, checkParameter, ih]
    split <;> rfl

theorem isIncomplete_iff {p : Parameter} :
    p.isIncomplete = true ↔ Text.trimmed p.name = [] ∨ Text.trimmed p.type.text = [] := by
  rw [Parameter.isIncomplete, Bool.or_eq_true, Text.trimmed_eq_nil_iff, Text.trimmed_eq_nil_iff]

/-- Nothing is wrong with a parameter that is clear. -/
theorem not_wrong_of_clear (position : Nat) {j : Nat}
    (h : Clear (checkParameter s.name) Parameter.name s.parameters j) (e : SchemaError) :
    ¬ s.Wrong position (.incomplete j) e ∧ ¬ s.Wrong position (.repeatedParameter j) e := by
  constructor
  · rintro (_ | _ | ⟨hp, hi⟩)
    have hc := (h _ hp).1
    rw [checkParameter, if_pos (isIncomplete_iff.mpr hi)] at hc
    cases hc
  · rintro (_ | _ | _ | ⟨hp, hm⟩)
    exact (h _ hp).2 hm

/-- Whose name repeats that of another is looked at last. -/
theorem Wrong.rank_lt {flaw : Flaw} {e : SchemaError} (h : s.Wrong position flaw e) :
    flaw.rank < Flaw.repeatedName.rank := by
  cases h <;> simp [Flaw.rank, Prod.Lex.toLex_lt_toLex]

/-- Where the names are right, the first flaw among the parameters is reported. -/
private theorem checkParameters_reports (emptyName : ∀ e, ¬ s.Wrong position .emptyName e)
    (emptyResult : ∀ e, ¬ s.Wrong position .emptyResult e) :
    Reports Flaw.rank (s.Wrong position) (checkParameters s.name [] 0 s.parameters) := by
  rw [checkParameters_eq]
  have hf := firstUnclear_checkMembers (checkParameter s.name) Parameter.name
    (fun p => .duplicateParameter s.name p.name) s.parameters
  generalize checkMembers _ _ _ [] 0 s.parameters = result at hf ⊢
  cases result with
  | ok _ =>
    intro flaw e
    cases flaw with
    | emptyName => exact emptyName e
    | emptyResult => exact emptyResult e
    | incomplete j => exact (not_wrong_of_clear position (hf j) e).1
    | repeatedParameter j => exact (not_wrong_of_clear position (hf j) e).2
    | repeatedName => nofun
  | error e =>
    obtain ⟨j, p, hp, hclear, hw⟩ := hf
    have earlier {k : Nat} (hk : k < j) (e' : SchemaError) :=
      not_wrong_of_clear position (hclear k hk) e'
    obtain hc | ⟨hc, hm, rfl⟩ := hw
    · rw [checkParameter] at hc
      split at hc
      · rename_i hi
        cases hc
        refine ⟨.incomplete j, .incomplete hp (isIncomplete_iff.mp hi), fun flaw e' hlt => ?_⟩
        cases flaw <;> simp only [Flaw.rank, Prod.Lex.toLex_lt_toLex] at hlt
        case emptyName => exact emptyName e'
        case emptyResult => exact emptyResult e'
        case incomplete k => exact (earlier (by omega) e').1
        case repeatedParameter k => exact (earlier (by omega) e').2
        case repeatedName => omega
      · cases hc
    · refine ⟨.repeatedParameter j, .repeatedParameter hp hm, fun flaw e' hlt => ?_⟩
      cases flaw <;> simp only [Flaw.rank, Prod.Lex.toLex_lt_toLex] at hlt
      case emptyName => exact emptyName e'
      case emptyResult => exact emptyResult e'
      case repeatedParameter k => exact (earlier (by omega) e').2
      case repeatedName => omega
      case incomplete k =>
        obtain hk | rfl : k < j ∨ k = j := by omega
        · exact (earlier hk e').1
        · rintro (_ | _ | ⟨hq, hi⟩)
          cases hp.symm.trans hq
          rw [checkParameter, if_pos (isIncomplete_iff.mpr hi)] at hc
          cases hc

/-- The check of an instruction reports its first flaw. -/
theorem check_reports (s : Signature) (position : Nat) :
    Reports Flaw.rank (s.Wrong position) (s.check position) := by
  rw [check]
  split
  · rename_i hn
    refine ⟨.emptyName, .emptyName (Text.trimmed_eq_nil_iff.mpr hn), fun flaw e' hlt => ?_⟩
    cases flaw <;> simp [Flaw.rank, Prod.Lex.toLex_lt_toLex] at hlt
  rename_i hn
  have emptyName (e : SchemaError) : ¬ s.Wrong position .emptyName e := by
    rintro ⟨h⟩
    exact hn (Text.trimmed_eq_nil_iff.mp h)
  split
  · rename_i hr
    refine ⟨.emptyResult, .emptyResult (Text.trimmed_eq_nil_iff.mpr hr), fun flaw e' hlt => ?_⟩
    cases flaw <;> simp [Flaw.rank, Prod.Lex.toLex_lt_toLex] at hlt
    exact emptyName e'
  rename_i hr
  refine checkParameters_reports emptyName fun e => ?_
  rintro (_ | h)
  exact hr (Text.trimmed_eq_nil_iff.mp h)

end Signature

/-! ### A whole schema -/

/-- Where something can be wrong with a schema. -/
inductive Spot where
  | baseName
  | instruction (place : Nat) (flaw : Flaw)

/-- The order of the spots: the instructions come one after the other. -/
def Spot.rank : Spot → ℕ ×ₗ ℕ ×ₗ ℕ
  | baseName => toLex (0, toLex (0, 0))
  | instruction i flaw => toLex (i + 1, flaw.rank)

theorem Spot.rank_injective : Function.Injective rank := by
  intro a b h
  cases a <;> cases b <;> simp only [rank, toLex_inj, Prod.mk.injEq] at h
  case baseName.baseName => rfl
  case instruction.instruction =>
    obtain ⟨hi, hf⟩ := h
    rw [Nat.succ.inj hi, Flaw.rank_injective hf]
  all_goals omega

namespace Schema

/-- What is wrong with a schema at a spot, and how it is reported. -/
inductive Wrong (schema : Schema) : Spot → SchemaError → Prop
  | emptyBaseName : Text.trimmed schema.baseName = [] → schema.Wrong .baseName .emptyBaseName
  | inside {i : Nat} {s : Signature} {flaw : Flaw} {e : SchemaError} :
      schema.instructions[i]? = some s → s.Wrong i flaw e → schema.Wrong (.instruction i flaw) e
  | repeatedName {i : Nat} {s : Signature} : schema.instructions[i]? = some s →
      s.name ∈ (schema.instructions.take i).map Signature.name →
      schema.Wrong (.instruction i .repeatedName) (.duplicateInstruction s.name)

/-- A schema that has no blank names or types, and no name twice where it should be there once. -/
structure WellFormed (schema : Schema) : Prop where
  baseName : Text.trimmed schema.baseName ≠ []
  names : ∀ s ∈ schema.instructions, Text.trimmed s.name ≠ []
  results : ∀ s ∈ schema.instructions, Text.trimmed s.result.text ≠ []
  parameters : ∀ s ∈ schema.instructions, ∀ p ∈ s.parameters,
    Text.trimmed p.name ≠ [] ∧ Text.trimmed p.type.text ≠ []
  distinct : (schema.instructions.map Signature.name).Nodup
  distinct_parameters : ∀ s ∈ schema.instructions, (s.parameters.map Parameter.name).Nodup

variable {schema : Schema}

theorem Wrong.unique {spot : Spot} {e e' : SchemaError} (h : schema.Wrong spot e)
    (h' : schema.Wrong spot e') : e = e' := by
  cases h with
  | emptyBaseName _ =>
    cases h'
    · rfl
  | inside hs hw =>
    cases h' with
    | inside hs' hw' =>
      cases hs.symm.trans hs'
      exact hw.unique hw'
    | repeatedName _ _ => exact absurd hw.rank_lt (lt_irrefl _)
  | repeatedName hs _ =>
    cases h' with
    | inside _ hw' => exact absurd hw'.rank_lt (lt_irrefl _)
    | repeatedName hs' _ =>
      cases hs.symm.trans hs'
      rfl

theorem checkInstructions_eq (seen : List String) (position : Nat)
    (instructions : List Signature) :
    checkInstructions seen position instructions =
      checkMembers Signature.check Signature.name (fun s => .duplicateInstruction s.name)
        seen position instructions := by
  induction instructions generalizing seen position with
  | nil => rfl
  | cons s rest ih =>
    cases h : s.check position <;> simp only [checkInstructions, checkMembers, h, ih]

/-- Nothing is wrong with an instruction that is clear. -/
theorem not_wrong_of_clear {i : Nat}
    (h : Clear Signature.check Signature.name schema.instructions i) (flaw : Flaw)
    (e : SchemaError) : ¬ schema.Wrong (.instruction i flaw) e := by
  rintro (_ | @⟨_, s, _, _, hs, hw⟩ | ⟨hs, hm⟩)
  · have hr := s.check_reports i
    rw [(h s hs).1] at hr
    exact hr flaw e hw
  · exact (h _ hs).2 hm

/-- The check of a schema reports the violation at the first spot. -/
theorem validate_reports (schema : Schema) : Reports Spot.rank schema.Wrong schema.validate := by
  rw [validate]
  split
  · rename_i hb
    refine ⟨.baseName, .emptyBaseName (Text.trimmed_eq_nil_iff.mpr hb), fun spot e' hlt => ?_⟩
    cases spot <;> simp [Spot.rank, Prod.Lex.toLex_lt_toLex] at hlt
  rename_i hb
  have baseName (e : SchemaError) : ¬ schema.Wrong .baseName e := by
    rintro ⟨h⟩
    exact hb (Text.trimmed_eq_nil_iff.mp h)
  rw [checkInstructions_eq]
  have hf := firstUnclear_checkMembers Signature.check Signature.name
    (fun s => .duplicateInstruction s.name) schema.instructions
  generalize checkMembers _ _ _ [] 0 schema.instructions = result at hf ⊢
  cases result with
  | ok _ =>
    intro spot e
    cases spot with
    | baseName => exact baseName e
    | instruction i flaw => exact not_wrong_of_clear (hf i) flaw e
  | error e =>
    obtain ⟨i, s, hs, hclear, hw⟩ := hf
    have hr := s.check_reports i
    -- Of the instruction itself only those flaws are left that come before the one that is reported.
    suffices h : ∃ flaw, schema.Wrong (.instruction i flaw) e ∧
        ∀ earlier e', earlier.rank < flaw.rank → ¬ schema.Wrong (.instruction i earlier) e' by
      obtain ⟨flaw, hflaw, hearlier⟩ := h
      refine ⟨.instruction i flaw, hflaw, fun spot e' hlt => ?_⟩
      cases spot with
      | baseName => exact baseName e'
      | instruction k earlier =>
        obtain hk | ⟨hk, hlt⟩ := Prod.Lex.toLex_lt_toLex.mp hlt
        · exact not_wrong_of_clear (hclear k (Nat.lt_of_succ_lt_succ hk)) earlier e'
        · obtain rfl := Nat.succ.inj hk
          exact hearlier earlier e' hlt
    obtain hc | ⟨hc, hm, rfl⟩ := hw
    · rw [hc] at hr
      obtain ⟨flaw, hflaw, hearlier⟩ := hr
      refine ⟨flaw, .inside hs hflaw, fun earlier e' hlt => ?_⟩
      rintro (_ | ⟨ht, hw⟩ | _)
      · cases hs.symm.trans ht
        exact hearlier earlier e' hlt hw
      · exact absurd (hlt.trans hflaw.rank_lt) (lt_irrefl _)
    · rw [hc] at hr
      refine ⟨.repeatedName, .repeatedName hs hm, fun earlier e' hlt => ?_⟩
      rintro (_ | ⟨ht, hw⟩ | _)
      · cases hs.symm.trans ht
        exact hr earlier e' hw
      · exact lt_irrefl _ hlt

/-- A schema is well formed exactly if nothing is wrong with it anywhere. -/
theorem wellFormed_iff : schema.WellFormed ↔ ∀ spot e, ¬ schema.Wrong spot e := by
  constructor
  · rintro ⟨baseName, names, results, parameters, distinct, distinct_parameters⟩ spot e
    rintro (h | ⟨hs, hw⟩ | ⟨hs, hm⟩)
    · exact baseName h
    · have hmem := List.mem_of_getElem? hs
      cases hw with
      | emptyName h => exact names _ hmem h
      | emptyResult h => exact results _ hmem h
      | incomplete hp h =>
        obtain ⟨hn, ht⟩ := parameters _ hmem _ (List.mem_of_getElem? hp)
        exact h.elim hn ht
      | repeatedParameter hp h =>
        refine nodup_iff_not_mem_take.mp (distinct_parameters _ hmem) _ _ ?_ (List.map_take ▸ h)
        rw [List.getElem?_map, hp, Option.map_some]
    · refine nodup_iff_not_mem_take.mp distinct _ _ ?_ (List.map_take ▸ hm)
      rw [List.getElem?_map, hs, Option.map_some]
  · intro h
    have inside {s : Signature} (hs : s ∈ schema.instructions) :
        ∃ i, ∀ flaw e, ¬ s.Wrong i flaw e := by
      obtain ⟨i, hi⟩ := List.mem_iff_getElem?.mp hs
      exact ⟨i, fun flaw e hw => h _ e (.inside hi hw)⟩
    constructor
    case baseName => exact fun hb => h _ _ (.emptyBaseName hb)
    case names =>
      intro s hs hn
      obtain ⟨i, hi⟩ := inside hs
      exact hi _ _ (.emptyName hn)
    case results =>
      intro s hs hr
      obtain ⟨i, hi⟩ := inside hs
      exact hi _ _ (.emptyResult hr)
    case parameters =>
      intro s hs p hp
      obtain ⟨i, hi⟩ := inside hs
      obtain ⟨j, hj⟩ := List.mem_iff_getElem?.mp hp
      exact ⟨fun hn => hi _ _ (.incomplete hj (.inl hn)), fun ht => hi _ _ (.incomplete hj (.inr ht))⟩
    case distinct =>
      refine nodup_iff_not_mem_take.mpr fun i name hn hm => ?_
      rw [List.getElem?_map, Option.map_eq_some_iff] at hn
      obtain ⟨s, hs, rfl⟩ := hn
      exact h _ _ (.repeatedName hs (List.map_take ▸ hm))
    case distinct_parameters =>
      intro s hs
      obtain ⟨i, hi⟩ := inside hs
      refine nodup_iff_not_mem_take.mpr fun j name hn hm => ?_
      rw [List.getElem?_map, Option.map_eq_some_iff] at hn
      obtain ⟨p, hp, rfl⟩ := hn
      exact hi _ _ (.repeatedParameter hp (List.map_take ▸ hm))

/-- A schema is valid exactly if it is well formed. Otherwise the violation is reported before which, in
the order of the spots, there is no other. -/
theorem validate_first (schema : Schema) :
    (schema.validate = .ok () ↔ schema.WellFormed) ∧
      ∀ e, schema.validate = .error e ↔
        ∃ spot, schema.Wrong spot e ∧
          ∀ earlier e', earlier.rank < spot.rank → ¬ schema.Wrong earlier e' := by
  rw [wellFormed_iff]
  exact (validate_reports schema).iff Spot.rank_injective Wrong.unique

/-- A parameter that repeats a name comes before an instruction that does. -/
example : validate ⟨"Ops", none, [⟨"A", ⟨"()"⟩, [⟨⟨"i32"⟩, "x"⟩, ⟨⟨"i32"⟩, "x "⟩]⟩,
    ⟨"A", ⟨"()"⟩, [⟨⟨"i32"⟩, "y"⟩, ⟨⟨"i32"⟩, "y"⟩]⟩]⟩ = .error (.duplicateParameter "A" "y") := by
  decide

end Schema

end Trampoline
