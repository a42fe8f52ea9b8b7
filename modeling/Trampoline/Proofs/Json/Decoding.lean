import Trampoline.Proofs.Json.Meaning
import Trampoline.Proofs.Json.Skipping

/-!
Reading a source. A format reads the text of any source: it gives what the source means in the format
and goes exactly as far as the source does, or it fails because the source means nothing there.
-/
namespace Trampoline.Json

/-! ### Single values -/

variable {t : List Char}

theorem readText_onto (source : Source) (t : List Char) :
    Gives (· = t) (readText (source.onto t)) source.text? := by
  obtain ⟨c, s, hc, ho⟩ := source.opens t
  rw [readText, hc, skipSpace_cons ho.isSpace]
  cases ho with
  | string =>
    cases hc
    exact readString_spell _ t
  | digit hd =>
    simp only [if_neg (ne_of_isDigit (d := '\x22') hd rfl)]
    exact .error
  | _ => exact .error

theorem readFlag_onto (source : Source) (t : List Char) :
    Gives (· = t) (readFlag (source.onto t)) source.flag? := by
  obtain ⟨c, s, hc, ho⟩ := source.opens t
  rw [readFlag, hc, skipSpace_cons ho.isSpace]
  cases ho with
  | yes =>
    cases hc
    simp only [if_true]
    exact .ok rfl
  | no =>
    cases hc
    exact .ok rfl
  | digit hd =>
    simp only [if_neg (ne_of_isDigit (d := 't') hd rfl), if_neg (ne_of_isDigit (d := 'f') hd rfl)]
    exact .error
  | _ => exact .error

theorem readNat_onto (expected : String) (source : Source) (ht : Ends t) :
    Gives (· = t) (readNat expected (source.onto t)) source.word? := by
  cases source with
  | number numeral => exact numeral.readNat_onto expected ht
  | flag value => cases value <;> exact .error
  | _ => exact .error

/-! ### Choices -/

theorem readName_spell (first : String) (others : List String) (glyphs : List Glyph) (t : List Char) :
    Gives (· = t) (readName first others (spell glyphs t))
      ((said? glyphs).bind fun name => findChoice name (first :: others)) := by
  refine (readString_spell glyphs t).bind fun name s hs => ?_
  dsimp only
  cases findChoice name (first :: others) with
  | none => exact .error
  | some i => exact .ok hs

theorem readNull_onto {source : Source} (h : source ≠ .null) (space : Space) (t : List Char) :
    ∃ e, readNull (space.chars ++ source.onto t) = .error e := by
  obtain ⟨c, s, hc, ho⟩ := source.opens t
  rw [readNull, skipSpace_append space.blank, hc, skipSpace_cons ho.isSpace]
  cases ho with
  | null => exact absurd rfl h
  | digit hd => exact ⟨_, if_neg (ne_of_isDigit hd rfl)⟩
  | _ => exact ⟨_, rfl⟩

/-- The object of a choice ends behind its one member. -/
theorem gives_sole {α : Type} (choice : α) (source : Source) (gap after : Space) (rest : Members)
    (t : List Char) :
    Gives (· = t)
      (do
        let s ← readNull (gap.chars ++ source.onto (after.chars ++ rest.onto false t))
        return (choice, ← readClosing '\x7d' s))
      (source.sole? choice rest) := by
  by_cases hs : source = .null
  · subst hs
    have hn : readNull (gap.chars ++ Source.null.onto (after.chars ++ rest.onto false t)) =
        .ok (after.chars ++ rest.onto false t) := by
      rw [readNull, skipSpace_append gap.blank]
      exact readWord_append "ull".toList _
    simp only [hn, bind, Except.bind]
    cases rest with
    | nil inner =>
      rw [Members.onto, ← List.append_assoc, readClosing_cons rfl (after.blank_append inner)]
      exact .ok rfl
    | cons _ _ _ _ _ _ _ =>
      rw [readClosing, skipSpace_append after.blank]
      exact .error
  · obtain ⟨e, he⟩ := readNull_onto hs gap (after.chars ++ rest.onto false t)
    rw [he, Source.sole?.eq_2 _ _ _ fun _ h => absurd h hs]
    exact .error

theorem readChoice_onto (first : String) (others : List String) (source : Source) (t : List Char) :
    Gives (· = t) (readChoice first others (source.onto t)) (source.choice? first others) := by
  cases source with
  | string glyphs => exact readName_spell first others glyphs t
  | object members =>
    rw [readChoice, Source.onto, skipSpace_cons rfl]
    cases members with
    | nil inner =>
      simp only [Members.onto, skipSpace_append inner.blank]
      exact .error
    | cons before key gap gap' source after rest =>
      simp only [Members.onto, separator, if_true, List.nil_append, skipSpace_append before.blank]
      refine (readName_spell first others key _).bind fun i s hs => ?_
      subst hs
      simp only [readColon_append]
      exact gives_sole i source gap' after rest t
  | number numeral =>
    obtain ⟨c, s, hc, ho⟩ := (Source.number numeral).opens t
    rw [readChoice, hc, skipSpace_cons ho.isSpace]
    cases ho with
    | minus => exact .error
    | digit hd =>
      simp only [if_neg (ne_of_isDigit (d := '\x22') hd rfl), if_neg (ne_of_isDigit (d := '\x7b') hd rfl)]
      exact .error
  | flag value => cases value <;> exact .error
  | _ => exact .error

/-! ### How much text there is -/

theorem length_le_spell (glyphs : List Glyph) (t : List Char) : t.length ≤ (spell glyphs t).length := by
  induction glyphs with
  | nil => exact Nat.le_succ _
  | cons glyph glyphs ih =>
    rw [spell, List.length_append]
    exact Nat.le_add_left_of_le ih

theorem Numeral.length_lt_onto (numeral : Numeral) (t : List Char) :
    t.length < (numeral.onto t).length := by
  obtain ⟨c, cs, hc, _⟩ := numeral.whole.exists_cons
  have hs : t.length ≤ (numeral.scaled t).length := by
    rw [scaled]
    split
    · exact Nat.le_refl _
    · simp only [List.length_cons, List.length_append]
      omega
  have hf : t.length ≤ (numeral.fractional t).length := by
    rw [fractional]
    split
    · exact hs
    · simp only [List.length_cons, List.length_append]
      omega
  have hm : t.length < (numeral.magnitude t).length := by
    rw [magnitude, hc, List.cons_append, List.length_cons, List.length_append]
    omega
  rw [onto]
  split
  · exact Nat.lt_succ_of_lt hm
  · exact hm

mutual

theorem Source.length_lt_onto : ∀ (source : Source) (t : List Char), t.length < (source.onto t).length
  | .null, t => by
    simp only [Source.onto, List.length_append]
    exact Nat.lt_add_of_pos_left (by decide)
  | .flag value, t => by
    rw [Source.onto, List.length_append]
    exact Nat.lt_add_of_pos_left (by cases value <;> decide)
  | .number numeral, t => numeral.length_lt_onto t
  | .string glyphs, t => Nat.lt_succ_of_le (length_le_spell glyphs t)
  | .array items, t => by
    have := items.length_lt_onto true t
    rw [Source.onto, List.length_cons]
    omega
  | .object members, t => by
    have := members.length_lt_onto true t
    rw [Source.onto, List.length_cons]
    omega

theorem Items.length_lt_onto : ∀ (items : Items) (first : Bool) (t : List Char),
    items.sources.length + t.length < (items.onto first t).length
  | .nil inner, _, t => by
    simp only [Items.sources, Items.onto, List.length_append, List.length_cons, List.length_nil]
    omega
  | .cons before source after rest, first, t => by
    have hs := source.length_lt_onto (after.chars ++ rest.onto false t)
    have hr := rest.length_lt_onto false t
    simp only [Items.sources, Items.onto, List.length_append, List.length_cons] at hs hr ⊢
    omega

theorem Members.length_lt_onto : ∀ (members : Members) (first : Bool) (t : List Char),
    members.count + t.length < (members.onto first t).length
  | .nil inner, _, t => by
    simp only [Members.count, Members.onto, List.length_append, List.length_cons]
    omega
  | .cons before key gap gap' source after rest, first, t => by
    have hs := source.length_lt_onto (after.chars ++ rest.onto false t)
    have hr := rest.length_lt_onto false t
    have hk := length_le_spell key (gap.chars ++ ':' ::
      (gap'.chars ++ source.onto (after.chars ++ rest.onto false t)))
    simp only [Members.count, Members.onto, List.length_append, List.length_cons] at hs hr hk ⊢
    omega

end

/-! ### Entries of arrays and objects -/

theorem nextEntry_append (closing : Char) (first : Bool) (space : Space) (s : List Char) :
    nextEntry closing first (space.chars ++ s) = nextEntry closing first s := by
  simp only [nextEntry, skipSpace_append space.blank]

theorem nextEntry_items (space before : Space) (source : Source) (first : Bool) (s : List Char) :
    nextEntry ']' first (space.chars ++ (separator first ++ (before.chars ++ source.onto s))) =
      .ok (some (source.onto s)) := by
  obtain ⟨c, cs, hc, ho⟩ := source.opens s
  rw [nextEntry_append, hc, nextEntry_entry ho.isSpace ho.ne_closing (by decide) first before.blank]

theorem nextEntry_nil (space inner : Space) (first : Bool) (t : List Char) :
    nextEntry ']' first (space.chars ++ (Items.nil inner).onto first t) = .ok none := by
  rw [Items.onto, nextEntry_append, nextEntry_closing rfl first inner.blank]

/-- A format reads every source as what it means, and stops where it ends. -/
def Format.Decodes (format : Format) : Prop :=
  ∀ (source : Source) {t : List Char}, Ends t →
    Gives (· = t) (format.read (source.onto t)) (format.value? source)

theorem readItems_onto {format : Format} (h : format.Decodes) : ∀ (items : Items) (space : Space)
    (first : Bool) (t : List Char) {fuel : Nat}, items.sources.length < fuel →
    Gives (· = t) (readItems format.read fuel first (space.chars ++ items.onto first t))
      (items.sources.mapM format.value?)
  | .nil inner, space, first, t, fuel, hf => by
    obtain ⟨fuel, rfl⟩ := Nat.exists_eq_add_of_lt hf
    have hb := space.blank_append inner
    rw [readItems, Items.onto, ← List.append_assoc, nextEntry_closing rfl first hb]
    simp only [readClosing_cons (c := ']') rfl hb]
    exact .ok rfl
  | .cons before source after rest, space, first, t, fuel, hf => by
    obtain ⟨fuel, rfl⟩ : ∃ n, fuel = n + 1 := Nat.exists_eq_succ_of_ne_zero (by omega)
    have ih := readItems_onto h rest after false t (Nat.lt_of_succ_lt_succ hf)
    rw [readItems, Items.onto, nextEntry_items, Items.sources, List.mapM_cons]
    refine (h source (rest.ends after t)).bind fun value s hs => ?_
    subst hs
    exact ih.bind fun values s hs => .ok hs

/-! ### Records -/

namespace Fields

/-- What is read of the members of an object, if all of their keys are texts. -/
def gather (fields : Fields) (soFar : fields.Partial) (members : Members) : Option fields.Partial :=
  if members.areLegible then fields.merge soFar members else none

theorem gather_cons {fields : Fields} (hd : fields.keys.Nodup) (soFar : fields.Partial) (before : Space)
    (glyphs : List Glyph) (gap gap' : Space) (source : Source) (after : Space) (rest : Members) :
    fields.gather soFar (.cons before glyphs gap gap' source after rest) =
      (said? glyphs).bind fun key => (fields.put key source soFar).bind fun soFar =>
        fields.gather soFar rest := by
  unfold gather
  cases hk : said? glyphs with
  | none => rw [Members.areLegible, hk, Option.isSome_none, Bool.false_and, if_neg Bool.false_ne_true]; rfl
  | some key =>
    rw [Members.areLegible, hk, Option.isSome_some, Bool.true_and,
      merge_cons before hk gap gap' source after rest hd, Option.bind_some]
    cases rest.areLegible with
    | true => rfl
    | false => cases fields.put key source soFar <;> rfl

/-- Fields of a record read the member that has the key of one of them as they take it in. -/
def Decode (fields : Fields) : Prop :=
  ∀ (soFar : fields.Partial) {key : String}, key ∈ fields.keys →
    ∀ (gap gap' : Space) (source : Source) {t : List Char}, Ends t →
      ∃ r, fields.readMember key soFar (gap.chars ++ ':' :: (gap'.chars ++ source.onto t)) =
          r.map some ∧ Gives (· = t) r (fields.put key source soFar)

theorem readMember_of_notMem : ∀ {fields : Fields} {key : String}, key ∉ fields.keys →
    ∀ (soFar : fields.Partial) (s : List Char), fields.readMember key soFar s = .ok none
  | .nil, _, _, _, _ => rfl
  | .cons name presence format rest, key, h, (value, values), s => by
    obtain ⟨hn, hr⟩ := not_or.mp (mt List.mem_cons.mpr h)
    rw [readMember_of_ne (Ne.symm hn), readMember_of_notMem hr values s]
    rfl

/-- Members are taken in one by one, up to the bracket that closes their object. -/
theorem readMembers_onto {fields : Fields} (hd : fields.keys.Nodup) (h : fields.Decode) :
    ∀ (members : Members) (space : Space) (first : Bool) (soFar : fields.Partial) (t : List Char)
      {fuel : Nat}, members.count < fuel →
    Gives (fun s => skipSpace s = '\x7d' :: t)
      (readMembers (fun key soFar rest => fields.readMember key soFar rest) fuel first soFar
        (space.chars ++ members.onto first t))
      (fields.gather soFar members)
  | .nil inner, space, first, soFar, t, fuel, hf => by
    obtain ⟨fuel, rfl⟩ := Nat.exists_eq_add_of_lt hf
    have hb := space.blank_append inner
    rw [readMembers, Members.onto, ← List.append_assoc, nextEntry_closing rfl first hb, gather,
      Members.areLegible, if_pos rfl, merge_nil]
    exact .ok ((skipSpace_append hb _).trans (skipSpace_cons rfl t))
  | .cons before glyphs gap gap' source after rest, space, first, soFar, t, fuel, hf => by
    obtain ⟨fuel, rfl⟩ : ∃ n, fuel = n + 1 := Nat.exists_eq_succ_of_ne_zero (by omega)
    have ih (soFar : fields.Partial) :=
      readMembers_onto hd h rest after false soFar t (Nat.lt_of_succ_lt_succ hf)
    rw [gather_cons hd, readMembers, nextEntry_append, Members.onto,
      nextEntry_entry rfl (by decide) (by decide) first before.blank]
    simp only [if_true]
    refine (readString_spell glyphs _).bind fun key s hs => ?_
    subst hs
    by_cases hk : key ∈ fields.keys
    · obtain ⟨r, hr, hg⟩ := h soFar hk gap gap' source (rest.ends after t)
      dsimp only
      rw [hr]
      generalize fields.put key source soFar = put at hg ⊢
      cases hg with
      | ok hs =>
        subst hs
        exact ih _
      | error => exact .error
    · dsimp only
      rw [put_of_notMem hk, readMember_of_notMem hk]
      have hskip := skipValue_onto source gap' (rest.ends after t)
      simp only [bind, Except.bind, readColon_append, hskip]
      exact ih soFar

/-- The members of an object up to its bracket make a record. -/
theorem readObject_onto {fields : Fields} (hd : fields.keys.Nodup) (h : fields.Decode)
    (members : Members) (t : List Char) :
    Gives (· = t)
      (do
        let (soFar, rest) ←
          readMembers (fun key soFar rest => fields.readMember key soFar rest)
            ((members.onto true t).length + 1) true fields.unread (members.onto true t)
        let values ← fields.complete soFar
        return (values, ← readClosing '\x7d' rest))
      (if members.areLegible then fields.ofMembers members else none) := by
  have hl := members.length_lt_onto true t
  have hg : (if members.areLegible then fields.ofMembers members else none) =
      (fields.gather fields.unread members).bind fun soFar => (fields.complete soFar).toOption := by
    rw [gather, ← complete_merge]
    cases members.areLegible <;> rfl
  rw [hg]
  refine (readMembers_onto hd h members ⟨[], .nil⟩ true fields.unread t (by omega)).bind
    fun soFar s hs => ?_
  dsimp only
  cases fields.complete soFar with
  | error e => exact .error
  | ok values =>
    simp only [readClosing, hs, bind, Except.bind, if_true]
    exact .ok rfl

/-- Reads the bracket that closes an array, when no further item may follow. -/
def closeItems (s : List Char) : Except Fault (List Char) :=
  match skipSpace s with
  | ',' :: _ => .error .malformed
  | rest => readClosing ']' rest

theorem closeItems_eq {s : List Char} (h : ∀ r, skipSpace s ≠ ',' :: r) :
    closeItems s = readClosing ']' (skipSpace s) := by
  rw [closeItems]
  split
  · exact absurd ‹_› (h _)
  · rfl

/-- What was read of an array, up to the end of the array. -/
def closed {α : Type} (r : Except Fault (α × List Char)) : Except Fault (α × List Char) := do
  let (a, rest) ← r
  return (a, ← closeItems rest)

theorem closed_map {α β : Type} (r : Except Fault (α × List Char)) (f : α → β) :
    closed (r >>= fun (a, rest) => pure (f a, rest)) =
      closed r >>= fun (a, rest) => pure (f a, rest) := by
  cases r with
  | error e => rfl
  | ok p =>
    simp only [closed, bind, Except.bind, pure, Except.pure]
    cases closeItems p.2 <;> rfl

theorem closeItems_nil (space inner : Space) (first : Bool) (t : List Char) :
    closeItems (space.chars ++ (Items.nil inner).onto first t) = .ok t := by
  have hs : skipSpace (space.chars ++ (Items.nil inner).onto first t) = ']' :: t := by
    rw [Items.onto, skipSpace_append space.blank, skipSpace_append inner.blank, skipSpace_cons rfl]
  rw [closeItems, hs]
  rfl

theorem closeItems_cons (space before : Space) (source : Source) (after : Space) (rest : Items)
    (first : Bool) (t : List Char) :
    closeItems (space.chars ++ (Items.cons before source after rest).onto first t) =
      .error .malformed := by
  rw [Items.onto, closeItems, skipSpace_append space.blank]
  cases first with
  | false => rfl
  | true =>
    obtain ⟨c, s, hc, ho⟩ := source.opens (after.chars ++ rest.onto false t)
    rw [separator, if_pos rfl, List.nil_append, skipSpace_append before.blank, hc,
      skipSpace_cons ho.isSpace]
    split
    · rfl
    · rw [readClosing, skipSpace_cons ho.isSpace]
      exact if_neg ho.ne_closing

end Fields

theorem Format.read_null (format : Format) (t : List Char) :
    (Format.optional format).read (Source.null.onto t) = .ok (none, t) := by
  have hw := readWord_append "ull".toList t
  simp only [Format.read]
  rw [show skipSpace (Source.null.onto t) = 'n' :: ("ull".toList ++ t) from rfl]
  simp only [hw]
  rfl

theorem Format.read_some (format : Format) {source : Source} (h : source ≠ .null) (t : List Char) :
    (Format.optional format).read (source.onto t) =
      format.read (source.onto t) >>= fun (value, rest) => pure (some value, rest) := by
  obtain ⟨c, s, hc, ho⟩ := source.opens t
  simp only [Format.read, hc, skipSpace_cons ho.isSpace]
  split
  · rename_i heq
    cases heq
    cases ho with
    | null => exact absurd rfl h
    | digit hd => cases hd
  · rfl

/-- A record that is given as an array. -/
theorem Format.read_array (name : String) (fields : Fields) (items : Items) (t : List Char) :
    (Format.record name fields).read ((Source.array items).onto t) =
      Fields.closed (fields.readItems name fields.size 0 true (items.onto true t)) := by
  rw [Source.onto, Format.read, skipSpace_cons rfl]
  simp only [if_true]
  refine bind_congr ?_
  rintro ⟨values, rest⟩
  dsimp only
  split
  · rename_i h
    rw [Fields.closeItems, h]
    rfl
  · rename_i h
    rw [Fields.closeItems_eq h]

mutual

/-- Every source is read as what it means. -/
theorem Format.decodes : ∀ (format : Format), format.isDistinct = true → format.Decodes
  | .text, _, source, t, _ => readText_onto source t
  | .flag, _, source, t, _ => readFlag_onto source t
  | .word expected, _, source, _, ht => readNat_onto expected source ht
  | .choice first others, _, source, t, _ => readChoice_onto first others source t
  | .optional format, hd, source, t, ht => by
    rw [Format.isDistinct, Bool.and_eq_true] at hd
    by_cases h : source = .null
    · rw [h, format.read_null]
      exact .ok rfl
    · rw [format.read_some h, format.value?_optional h]
      exact (format.decodes hd.2 source ht).map some
  | .sequence format, hd, source, t, ht => by
    obtain ⟨c, s, hc, ho⟩ := source.opens t
    rw [Format.read, hc, skipSpace_cons ho.isSpace]
    cases ho with
    | @array items =>
      cases hc
      have hl := items.length_lt_onto true t
      exact readItems_onto (format.decodes hd) items ⟨[], .nil⟩ true t (by omega)
    | digit h =>
      simp only [if_neg (ne_of_isDigit (d := '[') h rfl)]
      exact .error
    | _ => exact .error
  | .record name fields, hd, source, t, ht => by
    rw [Format.isDistinct, Bool.and_eq_true, decide_eq_true_eq] at hd
    cases source with
    | array items =>
      rw [Format.read_array]
      exact fields.readItems_onto name fields.size hd.2 items ⟨[], .nil⟩ 0 true t
    | object members =>
      rw [Source.onto, Format.read, skipSpace_cons rfl]
      exact fields.readObject_onto hd.1 (fields.decode hd.2) members t
    | number numeral =>
      obtain ⟨c, s, hc, ho⟩ := (Source.number numeral).opens t
      rw [Format.read, hc, skipSpace_cons ho.isSpace]
      cases ho with
      | minus => exact .error
      | digit h =>
        simp only [if_neg (ne_of_isDigit (d := '[') h rfl), if_neg (ne_of_isDigit (d := '\x7b') h rfl)]
        exact .error
    | flag value => cases value <;> exact .error
    | _ => exact .error

theorem Fields.decode : ∀ (fields : Fields), fields.isDistinct = true → fields.Decode
  | .nil, _ => nofun
  | .cons name presence format rest, hd => by
    rw [Fields.isDistinct, Bool.and_eq_true] at hd
    rintro ⟨value, values⟩ key hk gap gap' source t ht
    by_cases he : name = key
    · rw [Fields.put, if_pos he]
      simp only [Fields.readMember, if_pos he]
      cases value with
      | some value => exact ⟨.error (.duplicateField name), rfl, .error⟩
      | none =>
        have hv := format.decodes hd.1 source ht
        rw [← format.read_append gap'.blank] at hv
        refine ⟨format.read (gap'.chars ++ source.onto t) >>= fun (value, s) =>
          pure ((some value, values), s), ?_, ?_⟩
        · simp only [readColon_append, bind, Except.bind]
          cases format.read (gap'.chars ++ source.onto t) <;> rfl
        · rw [Format.offer, Option.map_map]
          exact hv.map fun value => (some value, values)
    · obtain ⟨r, hr, hg⟩ := rest.decode hd.2 values ((List.mem_cons.mp hk).resolve_left (Ne.symm he))
        gap gap' source ht
      rw [Fields.put, if_neg he, Fields.readMember_of_ne he, hr]
      refine ⟨r >>= fun (values, s) => pure ((value, values), s), ?_, hg.map _⟩
      cases r <;> rfl

theorem Fields.readItems_onto (record : String) (size : Nat) : ∀ (fields : Fields),
    fields.isDistinct = true → ∀ (items : Items) (space : Space) (index : Nat) (first : Bool)
      (t : List Char),
    Gives (· = t)
      (Fields.closed (fields.readItems record size index first (space.chars ++ items.onto first t)))
      (fields.ofItems items.sources)
  | .nil, _, .nil inner, space, index, first, t => by
    have hc := Fields.closeItems_nil space inner first t
    simp only [Fields.readItems, Fields.closed, bind, Except.bind, hc]
    exact .ok rfl
  | .nil, _, .cons before source after rest, space, index, first, t => by
    have hc := Fields.closeItems_cons space before source after rest first t
    simp only [Fields.readItems, Fields.closed, bind, Except.bind, hc]
    exact .error
  | .cons name presence format fields, hd, .nil inner, space, index, first, t => by
    rw [Fields.isDistinct, Bool.and_eq_true] at hd
    have ih := fields.readItems_onto record size hd.2 (.nil inner) space (index + 1) first t
    rw [Fields.readItems, nextEntry_nil, Items.sources, Fields.ofItems, Format.fallback]
    simp only [bind, Except.bind]
    split
    · exact .error
    · exact Fields.closed_map _ _ ▸ ih.map _
  | .cons name presence format fields, hd, .cons before source after rest, space, index, first, t => by
    rw [Fields.isDistinct, Bool.and_eq_true] at hd
    have ih := fields.readItems_onto record size hd.2 rest after (index + 1) false t
    have hv := format.decodes hd.1 source (rest.ends after t)
    rw [Fields.readItems, Items.onto, nextEntry_items, Items.sources, Fields.ofItems]
    simp only [bind, Except.bind]
    generalize format.value? source = v at hv ⊢
    generalize format.read (source.onto (after.chars ++ rest.onto false t)) = r at hv ⊢
    cases hv with
    | error => exact .error
    | ok hs =>
      subst hs
      exact Fields.closed_map _ _ ▸ ih.map _

end

/-- The text of a document, with white space around its value. -/
def Source.document (source : Source) (before after : Space) : String :=
  String.ofList (before.chars ++ source.onto after.chars)

/-- A document is read as what its value means, and is refused if that is nothing. -/
theorem Format.ofText_document {format : Format} (hd : format.isDistinct = true) (source : Source)
    (before after : Space) :
    (format.ofText (source.document before after)).toOption = format.value? source := by
  have he : Ends after.chars := by
    have := after.blank.ends (t := []) nofun
    rwa [List.append_nil] at this
  have hs : skipSpace after.chars = [] := by
    have := skipSpace_append after.blank []
    rwa [List.append_nil] at this
  have hv := format.decodes hd source he
  rw [Format.ofText, Source.document, String.toList_ofList, format.read_append before.blank]
  generalize format.read (source.onto after.chars) = r at hv ⊢
  generalize format.value? source = v at hv ⊢
  cases hv with
  | error => rfl
  | ok h =>
    subst h
    simp only [bind, Except.bind, hs]
    rfl

end Trampoline.Json
