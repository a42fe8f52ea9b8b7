import Trampoline.Proofs.Json.Layouts

/-!
Reading what was written. In a format that tells its values apart, the text of a value is read back as
this value, whatever the layout and whatever comes after it. Records lose nothing by the fields that are
left out, since these are the neutral ones.
-/
namespace Trampoline.Json

/-! ### Formats that tell their values apart -/

/-- Whether nothing of the format is written as nothing. -/
def Format.isSolid : Format → Bool
  | .optional _ => false
  | _ => true

def Fields.keys : Fields → List String
  | .nil => []
  | .cons key _ _ rest => key :: rest.keys

mutual

/-- Whether the choices of a format have different names, the fields of its records different keys, and
what is there is never written like what is not. -/
def Format.isDistinct : Format → Bool
  | .text => true
  | .flag => true
  | .word _ => true
  | .choice first others => decide (first :: others).Nodup
  | .optional format => format.isSolid && format.isDistinct
  | .sequence format => format.isDistinct
  | .record _ fields => decide fields.keys.Nodup && fields.isDistinct

def Fields.isDistinct : Fields → Bool
  | .nil => true
  | .cons _ _ format rest => format.isDistinct && rest.isDistinct

end

mutual

/-- All words in a value have at most 64 bits. -/
def Format.Fits : (format : Format) → format.Value → Prop
  | .text, _ => True
  | .flag, _ => True
  | .word _, value => value < UInt64.size
  | .choice _ _, _ => True
  | .optional format, value => ∀ a ∈ value, format.Fits a
  | .sequence format, values => ∀ a ∈ values, format.Fits a
  | .record _ fields, values => fields.Fits values

def Fields.Fits : (fields : Fields) → fields.Values → Prop
  | .nil, _ => True
  | .cons _ _ format rest, (value, values) => format.Fits value ∧ rest.Fits values

end

/-! ### Neutral values -/

mutual

/-- Nothing but the neutral value is taken for it. -/
theorem Format.eq_neutral : ∀ (format : Format) (value : format.Value),
    format.isNeutral value = true → value = format.neutral
  | .text, value, h => by simpa [Format.isNeutral, Format.neutral] using h
  | .flag, value, h => by simpa [Format.isNeutral, Format.neutral] using h
  | .word _, value, h => by simpa [Format.isNeutral, Format.neutral] using h
  | .choice _ _, value, h => by
    rw [Format.isNeutral, beq_iff_eq] at h
    exact Fin.ext h
  | .optional _, value, h => Option.isNone_iff_eq_none.mp h
  | .sequence _, value, h => List.isEmpty_iff.mp h
  | .record _ fields, values, h => fields.eq_neutral values h

theorem Fields.eq_neutral : ∀ (fields : Fields) (values : fields.Values),
    fields.isNeutral values = true → values = fields.neutral
  | .nil, _, _ => rfl
  | .cons _ _ format rest, (value, values), h => by
    rw [Fields.isNeutral, Bool.and_eq_true] at h
    rw [Fields.neutral, ← format.eq_neutral value h.1, ← rest.eq_neutral values h.2]

end

/-- The fields that are written, and what was written of them. -/
def Fields.kept : (fields : Fields) → fields.Values → fields.Partial
  | .nil, _ => ()
  | .cons _ presence format rest, (value, values) =>
    (if presence = .omittable ∧ format.isNeutral value then none else some value, rest.kept values)

/-- A record is complete without the fields that are left out. -/
theorem Fields.complete_kept : ∀ (fields : Fields) (values : fields.Values),
    fields.complete (fields.kept values) = .ok values
  | .nil, _ => rfl
  | .cons key presence format rest, (value, values) => by
    have ih := rest.complete_kept values
    by_cases ho : presence = .omittable ∧ format.isNeutral value
    · obtain ⟨rfl, hn⟩ := ho
      have he := format.eq_neutral value hn
      simp only [Fields.kept, hn, and_self, if_true, Fields.complete, ih, ← he]
      rfl
    · simp only [Fields.kept, if_neg ho, Fields.complete, ih]
      rfl

/-! ### Written text -/

theorem Format.write_ne_null {format : Format} (h : format.isSolid = true) (value : format.Value) :
    format.write value ≠ .null := by
  cases format with
  | optional _ => cases h
  | _ => nofun

namespace Layout

variable (layout : Layout)

/-- A value begins with neither white space nor a closing bracket, and only nothing begins like
nothing. -/
theorem chars_head (depth : Nat) (t : Tree) :
    ∃ c s, layout.chars depth t = c :: s ∧ isSpace c = false ∧ c ≠ ']' ∧ (t ≠ .null → c ≠ 'n') := by
  cases t with
  | null => exact ⟨'n', "ull".toList, rfl, rfl, by decide, fun h => absurd rfl h⟩
  | flag value =>
    cases value with
    | true => exact ⟨'t', "rue".toList, rfl, rfl, by decide, fun _ => by decide⟩
    | false => exact ⟨'f', "alse".toList, rfl, rfl, by decide, fun _ => by decide⟩
  | number value =>
    cases hc : Tree.numberChars value with
    | nil => exact absurd hc Nat.toDigits_ne_nil
    | cons c cs =>
      have hd : c.isDigit = true := isDigit_of_mem_numberChars (n := value) (hc ▸ List.mem_cons_self)
      refine ⟨c, cs, hc, isSpace_of_isDigit hd, ?_, fun _ => ?_⟩ <;>
        · rintro rfl
          cases hd
  | text value => exact ⟨'\x22', _, rfl, rfl, by decide, fun _ => by decide⟩
  | array ts => exact ⟨'[', _, rfl, rfl, by decide, fun _ => by decide⟩
  | object ms => exact ⟨'\x7b', _, rfl, rfl, by decide, fun _ => by decide⟩

theorem ends_items (depth : Nat) (ts : List Tree) {s t : List Char} (hs : Blank s) :
    Ends (layout.items depth false ts ++ (s ++ ']' :: t)) := by
  cases ts with
  | nil => exact hs.ends (ends_cons t (by decide))
  | cons _ _ => exact ends_cons _ (by decide)

theorem ends_members (depth : Nat) (ms : List (String × Tree)) {s t : List Char} (hs : Blank s) :
    Ends (layout.members depth false ms ++ (s ++ '\x7d' :: t)) := by
  cases ms with
  | nil => exact hs.ends (ends_cons t (by decide))
  | cons _ _ => exact ends_cons _ (by decide)

theorem length_items (depth : Nat) (first : Bool) (ts : List Tree) :
    ts.length ≤ (layout.items depth first ts).length := by
  induction ts generalizing first with
  | nil => exact Nat.le_refl 0
  | cons t ts ih =>
    obtain ⟨c, s, hc, _⟩ := layout.chars_head depth t
    have := ih false
    simp only [items, hc, List.length_append, List.length_cons]
    omega

theorem length_members (depth : Nat) (first : Bool) (ms : List (String × Tree)) :
    ms.length ≤ (layout.members depth first ms).length := by
  induction ms generalizing first with
  | nil => exact Nat.le_refl 0
  | cons m ms ih =>
    have := ih false
    simp only [members, List.length_append, List.length_cons]
    omega

end Layout

/-! ### Reading it back -/

/-- White space in front of a value makes no difference. -/
theorem Format.read_append (format : Format) {s : List Char} (hs : Blank s) (t : List Char) :
    format.read (s ++ t) = format.read t := by
  cases format with
  | text => simp only [Format.read, readText, skipSpace_append hs]
  | flag => simp only [Format.read, readFlag, skipSpace_append hs]
  | word _ => simp only [Format.read, readNat, skipSpace_append hs]
  | choice _ _ => simp only [Format.read, readChoice, skipSpace_append hs]
  | optional _ => simp only [Format.read, skipSpace_append hs]
  | sequence _ => simp only [Format.read, skipSpace_append hs]
  | record _ _ => simp only [Format.read, skipSpace_append hs]

/-- A member that has the key of the first field. -/
theorem Fields.readMember_self (name : String) (presence : Presence) (format : Format)
    (rest : Fields) (values : rest.Partial) {value : format.Value} {s t : List Char}
    (h : format.read s = .ok (value, t)) :
    (Fields.cons name presence format rest).readMember name (none, values) (':' :: s) =
      .ok (some ((some value, values), t)) := by
  simp only [Fields.readMember, if_true, readColon_cons, bind, Except.bind, h, pure, Except.pure]

/-- A member that has another key is left to the other fields. -/
theorem Fields.readMember_of_ne {name key : String} (hn : name ≠ key) (presence : Presence)
    (format : Format) (rest : Fields) (value : Option format.Value) (values : rest.Partial)
    (s : List Char) :
    (Fields.cons name presence format rest).readMember key (value, values) s =
      (rest.readMember key values s).map (Option.map fun (values, s) => ((value, values), s)) := by
  simp only [Fields.readMember, if_neg hn]
  cases rest.readMember key values s with
  | error e => rfl
  | ok found => cases found <;> rfl

/-- The items of an array, if each of them is read back. -/
theorem readItems_write {format : Format} (layout : Layout) (depth : Nat)
    (values : List format.Value)
    (h : ∀ a ∈ values, ∀ {s : List Char}, Ends s →
      format.read (layout.chars depth (format.write a) ++ s) = .ok (a, s))
    {s : List Char} (hs : Blank s) (t : List Char) (first : Bool) {fuel : Nat}
    (hf : values.length < fuel) :
    readItems format.read fuel first
        (layout.items depth first (values.map format.write) ++ (s ++ ']' :: t)) =
      .ok (values, t) := by
  induction values generalizing first fuel with
  | nil =>
    obtain ⟨fuel, rfl⟩ := Nat.exists_eq_add_of_lt hf
    rw [List.map_nil, Layout.items, List.nil_append, readItems, nextEntry_closing rfl first hs]
    simp only [readClosing_cons (c := ']') rfl hs]
    rfl
  | cons a values ih =>
    obtain ⟨fuel, rfl⟩ : ∃ n, fuel = n + 1 := Nat.exists_eq_succ_of_ne_zero (by omega)
    obtain ⟨c, cs, hc, hspace, hclose, _⟩ := layout.chars_head depth (format.write a)
    have ha := h a List.mem_cons_self (layout.ends_items depth (values.map format.write) (t := t) hs)
    have hrest := ih (fun b hb => h b (List.mem_cons_of_mem a hb)) false (Nat.lt_of_succ_lt_succ hf)
    rw [hc, List.cons_append] at ha
    rw [List.map_cons, Layout.items, readItems]
    simp only [hc, List.append_assoc, List.cons_append]
    rw [nextEntry_entry hspace hclose (by decide) first (layout.blank_lineBreak depth)]
    simp only [ha, hrest, bind, Except.bind, pure, Except.pure]

mutual

/-- What is written in a format is read back, up to where it ends. -/
theorem Format.read_write (layout : Layout) : ∀ (format : Format), format.isDistinct = true →
    ∀ value, format.Fits value → ∀ depth {s : List Char}, Ends s →
      format.read (layout.chars depth (format.write value) ++ s) = .ok (value, s)
  | .text, _, value, _, _, s, _ => by
    simp only [Format.write, Layout.chars, writeString, List.cons_append, List.append_assoc,
      Format.read, readText, skipSpace_cons (c := '\x22') rfl, if_true]
    exact readString_writeString value s
  | .flag, _, value, _, _, s, _ => by
    cases value with
    | true => rfl
    | false => rfl
  | .word expected, _, value, hf, _, s, hs => readNat_numberChars expected hf hs
  | .choice first others, hd, value, _, _, s, _ => by
    have hn : (first :: others).Nodup := of_decide_eq_true hd
    have hr := readString_writeString ((first :: others).get value) s
    simp only [Format.write, Layout.chars, writeString, List.cons_append, List.append_assoc,
      Format.read, readChoice, skipSpace_cons (c := '\x22') rfl, if_true, List.nil_append, readName,
      hr, bind, Except.bind, findChoice_get hn]
  | .optional format, hd, value, hf, depth, s, hs => by
    rw [Format.isDistinct, Bool.and_eq_true] at hd
    cases value with
    | none => rfl
    | some value =>
      have ih := format.read_write layout hd.2 value (hf value rfl) depth hs
      obtain ⟨c, cs, hc, hspace, _, hnull⟩ := layout.chars_head depth (format.write value)
      have hn := hnull (format.write_ne_null hd.1 value)
      rw [Format.write, Format.read]
      simp only [hc, List.cons_append, skipSpace_cons hspace] at ih ⊢
      split
      · rename_i heq
        exact absurd (List.cons.inj heq).1 hn
      · rename_i heq _
        rw [ih]
        rfl
  | .sequence format, hd, values, hf, depth, s, hs => by
    have hl := layout.length_items (depth + 1) true (values.map format.write)
    rw [List.length_map] at hl
    simp only [Format.write, Layout.chars, List.cons_append, List.append_assoc, List.nil_append,
      Format.read, skipSpace_cons (c := '[') rfl, if_true]
    refine readItems_write layout (depth + 1) values ?_ (layout.blank_ending depth _) s true ?_
    · exact fun a ha _ he => format.read_write layout hd a (hf a ha) (depth + 1) he
    · simp only [List.length_append]
      omega
  | .record name fields, hd, values, hf, depth, s, hs => by
    rw [Format.isDistinct, Bool.and_eq_true, decide_eq_true_eq] at hd
    have hl := layout.length_members (depth + 1) true (fields.write values)
    have hb := layout.blank_ending depth (fields.write values)
    have hsame : ∀ key ∈ fields.keys, ∀ soFar s, fields.readMember key soFar s =
        (fields.readMember key soFar s).map (Option.map fun (soFar, s) => (soFar, s)) := by
      intro key _ soFar s
      cases fields.readMember key soFar s with
      | error e => rfl
      | ok found => cases found <;> rfl
    have hr {fuel : Nat} (hn : (fields.write values).length < fuel) :=
      fields.readMembers_write layout hd.2 hd.1 values hf (fun soFar => soFar) hsame (depth + 1) true hb
        s hn
    simp only [Format.write, Layout.chars, List.cons_append, List.append_assoc, List.nil_append,
      Format.read, skipSpace_cons (c := '\x7b') rfl, if_true, if_neg (show '\x7b' ≠ '[' by decide)]
    rw [hr (by simp only [List.length_append]; omega)]
    simp only [bind, Except.bind, fields.complete_kept values, readClosing_cons (c := '\x7d') rfl hb]
    rfl

theorem Fields.readMembers_write (layout : Layout) : ∀ (fields : Fields),
    fields.isDistinct = true → fields.keys.Nodup → ∀ values, fields.Fits values →
    ∀ {α : Type} {member : String → α → List Char → Except Fault (Option (α × List Char))}
      (embed : fields.Partial → α),
      (∀ key ∈ fields.keys, ∀ soFar s, member key (embed soFar) s =
        (fields.readMember key soFar s).map (Option.map fun (soFar, s) => (embed soFar, s))) →
      ∀ (depth : Nat) (first : Bool) {s : List Char} (_ : Blank s) (t : List Char) {fuel : Nat},
      (fields.write values).length < fuel →
      readMembers member fuel first (embed fields.unread)
          (layout.members depth first (fields.write values) ++ (s ++ '\x7d' :: t)) =
        .ok (embed (fields.kept values), s ++ '\x7d' :: t)
  | .nil, _, _, _, _, _, _, _, _, _, first, s, hs, t, fuel, hl => by
    obtain ⟨fuel, rfl⟩ := Nat.exists_eq_add_of_lt hl
    simp only [Fields.write, Layout.members, List.nil_append, readMembers,
      nextEntry_closing (show isSpace '\x7d' = false from rfl) first hs]
  | .cons name presence format rest, hd, hk, (value, values), hf, α, member, embed, hm, depth, first,
      s, hs, t, fuel, hl => by
    rw [Fields.isDistinct, Bool.and_eq_true] at hd
    obtain ⟨hn, hk⟩ := List.nodup_cons.mp hk
    -- A key of a later field is not the key of this one.
    have hlater (kept : Option format.Value) : ∀ key ∈ rest.keys, ∀ soFar s,
        member key (embed (kept, soFar)) s =
          (rest.readMember key soFar s).map (Option.map fun (soFar, s) => (embed (kept, soFar), s)) := by
      intro key hkey soFar s
      have hne : name ≠ key := fun he => hn (he ▸ hkey)
      rw [hm key (List.mem_cons_of_mem name hkey), Fields.readMember_of_ne hne]
      cases rest.readMember key soFar s with
      | error e => rfl
      | ok found => cases found <;> rfl
    have ih (kept : Option format.Value) := rest.readMembers_write layout hd.2 hk values hf.2
      (fun soFar => embed (kept, soFar)) (hlater kept) depth
    by_cases ho : presence = .omittable ∧ format.isNeutral value
    · rw [Fields.write, if_pos ho] at hl ⊢
      simp only [Fields.kept, if_pos ho]
      exact ih none first hs t hl
    · rw [Fields.write, if_neg ho] at hl ⊢
      simp only [Fields.kept, if_neg ho]
      obtain ⟨fuel, rfl⟩ : ∃ n, fuel = n + 1 := Nat.exists_eq_succ_of_ne_zero (by omega)
      have hvalue := format.read_write layout hd.1 value hf.1 depth
        (layout.ends_members depth (rest.write values) (t := t) hs)
      rw [← format.read_append layout.blank_gap] at hvalue
      have hread : member name (embed (none, rest.unread)) (':' :: (layout.gap ++
          (layout.chars depth (format.write value) ++
            (layout.members depth false (rest.write values) ++ (s ++ '\x7d' :: t))))) =
          .ok (some (embed (some value, rest.unread),
            layout.members depth false (rest.write values) ++ (s ++ '\x7d' :: t))) := by
        rw [hm name List.mem_cons_self, Fields.readMember_self _ _ _ _ _ hvalue]
        rfl
      have hrest := ih (some value) false hs t (Nat.lt_of_succ_lt_succ hl)
      simp only [Layout.members, writeString, List.append_assoc, List.cons_append, List.nil_append,
        readMembers]
      rw [nextEntry_entry (c := '\x22') rfl (by decide) (by decide) first
        (layout.blank_lineBreak depth)]
      simp only [if_true, readString_writeString, bind, Except.bind]
      rw [Fields.unread, hread]
      exact hrest

end

/-- A document that holds a value and nothing else. -/
theorem Format.ofText_write (layout : Layout) {format : Format} (hd : format.isDistinct = true)
    {value : format.Value} (hf : format.Fits value) :
    format.ofText (String.ofList (layout.chars 0 (format.write value))) = .ok value := by
  have hr := format.read_write layout hd value hf 0 (s := []) nofun
  rw [List.append_nil] at hr
  rw [Format.ofText, String.toList_ofList, hr]
  rfl

end Trampoline.Json
