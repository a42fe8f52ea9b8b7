import Trampoline.Proofs.Json.Sources

/-!
Passing over values. A value of any depth is passed over exactly, whatever its spelling. The brackets
that are open around it are kept in a list, so a value inside brackets leads from the state where an entry
is due to the state where one has just ended.
-/
namespace Trampoline.Json

/-! ### Strings -/

private theorem skipString_short {letter c : Char} (h : shortEscape letter = some c) (s : List Char) :
    skipString ('\\' :: letter :: s) = skipString s := by
  have hu : letter ≠ 'u' := by
    rintro rfl
    exact absurd (h.symm.trans (show shortEscape 'u' = none from rfl)) nofun
  rw [skipString.eq_5 _ _ _ (fun _ _ _ _ _ he => absurd he hu) hu]
  simp only [if_neg (show '\\' ≠ '\x22' by decide), if_true, h]

private theorem skipString_code {a b c d : Char} {n : Nat} (h : hexNumber a b c d = some n)
    (s : List Char) : skipString ('\\' :: 'u' :: a :: b :: c :: d :: s) = skipString s := by
  rw [skipString]
  simp only [if_neg (show '\\' ≠ '\x22' by decide), if_true, h]

theorem skipString_spell (glyphs : List Glyph) (t : List Char) :
    skipString (spell glyphs t) = .ok t := by
  induction glyphs with
  | nil =>
    rw [spell, skipString.eq_def]
    exact if_pos rfl
  | cons glyph glyphs ih =>
    cases glyph with
    | plain c h =>
      change skipString (c :: spell glyphs t) = _
      rw [skipString.eq_def]
      simp only [if_neg h.1, if_neg h.2.1, if_neg (Nat.not_lt.mpr h.2.2), ih]
    | short letter c h => exact (skipString_short h _).trans ih
    | code a b c d n h => exact (skipString_code h _).trans ih

/-! ### Numbers -/

theorem skipDigits_chars (digits : Digits) {s : List Char}
    (hs : ∀ c ∈ s.head?, c.isDigit = false) : skipDigits (digits.chars ++ s) = .ok s := by
  obtain ⟨c, cs, hc, hd⟩ := digits.exists_cons
  have ha := (digits.split hs).2
  rw [hc, List.cons_append, afterDigits, List.dropWhile_cons_of_pos hd] at ha
  rw [hc, List.cons_append, skipDigits, if_pos hd, afterDigits, ha]

namespace Numeral

variable (numeral : Numeral) {t : List Char}

/-- The sign of an exponent is no digit. -/
private theorem skipExponent_signed (e : Exponent) (s : List Char) :
    skipExponent (e.mark :: (e.sign ++ (e.digits.chars ++ s))) = skipDigits (e.digits.chars ++ s) := by
  obtain ⟨c, cs, hc, hd⟩ := e.digits.exists_cons
  have unsigned {mark : Char} (hm : mark = 'e' ∨ mark = 'E') :
      skipExponent (mark :: (c :: (cs ++ s))) = skipDigits (c :: (cs ++ s)) := by
    obtain rfl | rfl := hm <;> rw [skipExponent]
    all_goals
      intro r h
      cases h
      cases hd
  rw [hc]
  obtain hs | hs | hs := e.isSign
  · rw [hs]
    exact unsigned e.isMark
  · obtain hm | hm := e.isMark <;> rw [hm, hs] <;> rfl
  · obtain hm | hm := e.isMark <;> rw [hm, hs] <;> rfl

theorem skipExponent_scaled (ht : Ends t) : skipExponent (numeral.scaled t) = .ok t := by
  rw [scaled]
  split
  · unfold skipExponent
    split
    · exact absurd rfl (ht 'e' rfl).2.2.1
    · exact absurd rfl (ht 'E' rfl).2.2.2
    · rfl
  · rw [skipExponent_signed]
    exact skipDigits_chars _ fun c hc => (ht c hc).1

theorem ne_point_scaled (ht : Ends t) (s : List Char) : numeral.scaled t ≠ '.' :: s := by
  intro h
  rw [scaled] at h
  split at h
  · subst h
    exact absurd rfl (ht '.' rfl).2.1
  · rename_i e _
    have hm := (List.cons.inj h).1
    obtain he | he := e.isMark <;> rw [he] at hm <;> cases hm

theorem skipNumber_magnitude (ht : Ends t) : skipNumber (numeral.magnitude t) = .ok t := by
  obtain ⟨c, cs, hc, hd⟩ := numeral.whole.exists_cons
  obtain ⟨hw, ha⟩ := numeral.whole.split (numeral.isDigit_head_fractional ht)
  rw [hc, List.cons_append, digits, List.takeWhile_cons_of_pos hd, ← digits, List.cons.injEq] at hw
  rw [hc, List.cons_append, afterDigits, List.dropWhile_cons_of_pos hd] at ha
  have hz : ¬ (c = '0' ∧ (digits (cs ++ numeral.fractional t)).isEmpty = false) := by
    rintro ⟨rfl, he⟩
    have hone := numeral.zero (by rw [hc]; rfl)
    rw [hc, List.cons.injEq] at hone
    rw [hw.2, hone.2] at he
    cases he
  rw [magnitude, hc, List.cons_append, skipNumber, if_pos hd, if_neg hz, afterDigits, ha, fractional]
  cases numeral.fraction with
  | none =>
    dsimp only
    split
    · rename_i heq
      exact absurd heq (numeral.ne_point_scaled ht _)
    · exact numeral.skipExponent_scaled ht
  | some digits =>
    simp only [skipDigits_chars digits (numeral.isDigit_head_scaled ht)]
    exact numeral.skipExponent_scaled ht

end Numeral

theorem readWord_append (word t : List Char) : readWord word (word ++ t) = .ok t := by
  induction word with
  | nil => rfl
  | cons w word ih =>
    rw [List.cons_append, readWord, if_pos rfl]
    exact ih

/-! ### The state while passing over a value -/

section

variable {brackets outer : List Bracket} {s s' rest : List Char} {c d : Char}

/-- Where an entry is due, its first character decides. -/
private theorem skipRest_entry (hk : skipKey brackets s = .ok s') (hs : skipSpace s' = c :: rest) :
    skipRest true brackets s =
      match Bracket.ofChar? c with
      | some bracket =>
        match skipSpace rest with
        | [] => .error .cutShort
        | d :: rest' =>
          if d = bracket.closing then skipRest false brackets rest'
          else skipRest true (bracket :: brackets) rest
      | none =>
        match skipScalar (c :: rest) with
        | .error e => .error e
        | .ok rest' => skipRest false brackets rest' := by
  rw [skipRest.eq_def, if_pos rfl]
  split
  · rename_i he
    cases he.symm.trans hk
  · rename_i he
    cases he.symm.trans hk
    split
    · rename_i he
      cases he.symm.trans hs
    · rename_i he
      cases he.symm.trans hs
      cases Bracket.ofChar? c with
      | some bracket =>
        dsimp only
        split
        · rename_i he
          rw [he]
        · rename_i he
          rw [he]
      | none =>
        dsimp only
        split
        · rename_i he
          rw [he]
        · rename_i he
          rw [he]

theorem skipRest_scalar (hk : skipKey brackets s = .ok s') (hs : skipSpace s' = c :: rest)
    (hb : Bracket.ofChar? c = none) {t : List Char} (ht : skipScalar (c :: rest) = .ok t) :
    skipRest true brackets s = skipRest false brackets t := by
  simp only [skipRest_entry hk hs, hb, ht]

theorem skipRest_empty (bracket : Bracket) (hk : skipKey brackets s = .ok s')
    (hs : skipSpace s' = bracket.opening :: rest) {t : List Char}
    (ht : skipSpace rest = bracket.closing :: t) :
    skipRest true brackets s = skipRest false brackets t := by
  have hb : Bracket.ofChar? bracket.opening = some bracket := by cases bracket <;> rfl
  simp only [skipRest_entry hk hs, hb, ht, if_true]

theorem skipRest_open (bracket : Bracket) (hk : skipKey brackets s = .ok s')
    (hs : skipSpace s' = bracket.opening :: rest) {t : List Char} (ht : skipSpace rest = d :: t)
    (hd : d ≠ bracket.closing) :
    skipRest true brackets s = skipRest true (bracket :: brackets) rest := by
  have hb : Bracket.ofChar? bracket.opening = some bracket := by cases bracket <;> rfl
  simp only [skipRest_entry hk hs, hb, ht, if_neg hd]

/-- Where an entry has ended, another one may follow, or the bracket closes. -/
private theorem skipRest_ended (bracket : Bracket) (hs : skipSpace s = c :: rest) :
    skipRest false (bracket :: outer) s =
      if c = ',' then skipRest true (bracket :: outer) rest
      else if c = bracket.closing then skipRest false outer rest else .error .malformed := by
  rw [skipRest.eq_def, if_neg Bool.false_ne_true]
  dsimp only
  split
  · rename_i he
    cases he.symm.trans hs
  · rename_i he
    cases he.symm.trans hs
    rfl

theorem skipRest_comma (bracket : Bracket) (hs : skipSpace s = ',' :: rest) :
    skipRest false (bracket :: outer) s = skipRest true (bracket :: outer) rest :=
  (skipRest_ended bracket hs).trans (if_pos rfl)

theorem skipRest_close (bracket : Bracket) (hs : skipSpace s = bracket.closing :: rest) :
    skipRest false (bracket :: outer) s = skipRest false outer rest := by
  have hc : bracket.closing ≠ ',' := by cases bracket <;> decide
  rw [skipRest_ended bracket hs, if_neg hc, if_pos rfl]

end

theorem readColon_append (gap : Space) (s : List Char) : readColon (gap.chars ++ ':' :: s) = .ok s := by
  rw [readColon, skipSpace_append gap.blank]
  rfl

private theorem skipKey_member (outer : List Bracket) {space : List Char} (hs : Blank space)
    (key : List Glyph) (gap : Space) (s : List Char) :
    skipKey (.object :: outer) (space ++ '\x22' :: spell key (gap.chars ++ ':' :: s)) = .ok s := by
  simp only [skipKey, skipSpace_append hs, skipSpace_cons (show isSpace '\x22' = false from rfl),
    if_true, skipString_spell, readColon_append]

/-! ### Values -/

/-- What is neither an array nor an object. -/
def Source.IsScalar : Source → Prop
  | .array _ => False
  | .object _ => False
  | _ => True

theorem Source.skipScalar_onto {source : Source} (h : source.IsScalar) {t : List Char}
    (ht : Ends t) : skipScalar (source.onto t) = .ok t := by
  cases source with
  | null => exact readWord_append "ull".toList t
  | flag value =>
    cases value with
    | true => exact readWord_append "rue".toList t
    | false => exact readWord_append "alse".toList t
  | string glyphs => exact skipString_spell glyphs t
  | array _ => exact h.elim
  | object _ => exact h.elim
  | number numeral =>
    have hm := numeral.skipNumber_magnitude ht
    rw [Source.onto, Numeral.onto]
    split
    · exact hm
    · obtain ⟨c, cs, hc, hd⟩ := numeral.whole.exists_cons
      rw [Numeral.magnitude, hc, List.cons_append] at hm ⊢
      rw [skipScalar, if_neg (ne_of_isDigit hd rfl), if_neg (ne_of_isDigit hd rfl),
        if_neg (ne_of_isDigit hd rfl), if_neg (ne_of_isDigit hd rfl), if_pos hd]
      exact hm

theorem Opens.ofChar?_eq_none {source : Source} {c : Char} (ho : Opens source c)
    (h : source.IsScalar) : Bracket.ofChar? c = none := by
  cases ho with
  | digit hd =>
    rw [Bracket.ofChar?, if_neg (ne_of_isDigit hd rfl), if_neg (ne_of_isDigit hd rfl)]
  | array => exact h.elim
  | object => exact h.elim
  | _ => rfl

private theorem skipRest_of_isScalar (source : Source) (h : source.IsScalar) {brackets : List Bracket}
    {s t space : List Char} (hs : Blank space) (ht : Ends t)
    (hk : skipKey brackets s = .ok (space ++ source.onto t)) :
    skipRest true brackets s = skipRest false brackets t := by
  obtain ⟨c, cs, hc, hopens⟩ := source.opens t
  have hv := source.skipScalar_onto h ht
  rw [hc] at hv
  refine skipRest_scalar hk ?_ (hopens.ofChar?_eq_none h) hv
  rw [skipSpace_append hs, hc, skipSpace_cons hopens.isSpace]

mutual

/-- A value leads from the state where it is due to the state where it has just ended. -/
theorem Source.skipRest_onto : ∀ (source : Source) {brackets : List Bracket} {s t space : List Char},
    Blank space → Ends t → skipKey brackets s = .ok (space ++ source.onto t) →
    skipRest true brackets s = skipRest false brackets t
  | .array (.nil inner), _, _, t, _, hs, _, hk =>
    skipRest_empty .array hk (skipSpace_append hs _) (skipSpace_append inner.blank (']' :: t))
  | .array (.cons before source after rest), _, _, t, _, hs, _, hk => by
    obtain ⟨c, cs, hc, hopens⟩ := source.opens (after.chars ++ rest.onto false t)
    have hd : skipSpace (before.chars ++ source.onto (after.chars ++ rest.onto false t)) = c :: cs := by
      rw [skipSpace_append before.blank, hc, skipSpace_cons hopens.isSpace]
    rw [skipRest_open .array hk (skipSpace_append hs _) hd hopens.ne_closing,
      source.skipRest_onto before.blank (rest.ends after t) rfl]
    exact rest.skipRest_onto after.blank t
  | .object (.nil inner), _, _, t, _, hs, _, hk =>
    skipRest_empty .object hk (skipSpace_append hs _) (skipSpace_append inner.blank ('\x7d' :: t))
  | .object (.cons before key gap gap' source after rest), brackets, _, t, _, hs, _, hk => by
    rw [skipRest_open .object hk (skipSpace_append hs _) (skipSpace_append before.blank ('\x22' :: _))
      (by decide)]
    have hkey := skipKey_member brackets before.blank key gap
      (gap'.chars ++ source.onto (after.chars ++ rest.onto false t))
    exact (source.skipRest_onto gap'.blank (rest.ends after t) hkey).trans
      (rest.skipRest_onto after.blank t)
  | .null, _, _, _, _, hs, ht, hk => skipRest_of_isScalar .null trivial hs ht hk
  | .flag value, _, _, _, _, hs, ht, hk => skipRest_of_isScalar (.flag value) trivial hs ht hk
  | .number numeral, _, _, _, _, hs, ht, hk =>
    skipRest_of_isScalar (.number numeral) trivial hs ht hk
  | .string glyphs, _, _, _, _, hs, ht, hk =>
    skipRest_of_isScalar (.string glyphs) trivial hs ht hk

theorem Items.skipRest_onto : ∀ (items : Items) {outer : List Bracket} {space : List Char},
    Blank space → ∀ t, skipRest false (.array :: outer) (space ++ items.onto false t) =
      skipRest false outer t
  | .nil inner, _, _, hs, t => by
    refine skipRest_close .array ?_
    rw [skipSpace_append hs, Items.onto, skipSpace_append inner.blank]
    rfl
  | .cons before source after rest, outer, space, hs, t => by
    have hcomma := (skipSpace_append hs _).trans (skipSpace_cons (show isSpace ',' = false from rfl)
      (before.chars ++ source.onto (after.chars ++ rest.onto false t)))
    exact (skipRest_comma .array hcomma).trans <|
      (source.skipRest_onto before.blank (rest.ends after t) rfl).trans <|
      rest.skipRest_onto after.blank t

theorem Members.skipRest_onto : ∀ (members : Members) {outer : List Bracket} {space : List Char},
    Blank space → ∀ t, skipRest false (.object :: outer) (space ++ members.onto false t) =
      skipRest false outer t
  | .nil inner, _, _, hs, t => by
    refine skipRest_close .object ?_
    rw [skipSpace_append hs, Members.onto, skipSpace_append inner.blank]
    rfl
  | .cons before key gap gap' source after rest, outer, space, hs, t => by
    have hcomma := (skipSpace_append hs _).trans (skipSpace_cons (show isSpace ',' = false from rfl)
      (before.chars ++ '\x22' :: spell key (gap.chars ++ ':' ::
        (gap'.chars ++ source.onto (after.chars ++ rest.onto false t)))))
    have hkey := skipKey_member outer before.blank key gap
      (gap'.chars ++ source.onto (after.chars ++ rest.onto false t))
    exact (skipRest_comma .object hcomma).trans <|
      (source.skipRest_onto gap'.blank (rest.ends after t) hkey).trans <|
      rest.skipRest_onto after.blank t

end

/-- A value is passed over exactly, at any depth. -/
theorem skipValue_onto (source : Source) (space : Space) {t : List Char} (ht : Ends t) :
    skipValue (space.chars ++ source.onto t) = .ok t := by
  rw [skipValue, source.skipRest_onto space.blank ht rfl, skipRest.eq_def]
  rfl

end Trampoline.Json
