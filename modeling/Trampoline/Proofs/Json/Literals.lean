import Trampoline.Proofs.Json.Sources

/-!
Strings and numbers in any spelling. A string is read as the text it stands for, and a number as a word
where it is written like one; in every other case reading fails.
-/
namespace Trampoline.Json

/-- Reading gives a value and stops where it should, or it fails and there is no value. -/
inductive Gives {α : Type} (stop : List Char → Prop) :
    Except Fault (α × List Char) → Option α → Prop
  | ok {a : α} {s : List Char} : stop s → Gives stop (.ok (a, s)) (some a)
  | error {e : Fault} : Gives stop (.error e) none

namespace Gives

variable {α β : Type} {stop stop' : List Char → Prop} {r : Except Fault (α × List Char)} {v : Option α}

theorem bind (h : Gives stop r v) {f : α × List Char → Except Fault (β × List Char)}
    {g : α → Option β} (hf : ∀ a s, stop s → Gives stop' (f (a, s)) (g a)) :
    Gives stop' (r >>= f) (v.bind g) := by
  cases h with
  | ok hs => exact hf _ _ hs
  | error => exact .error

theorem map (h : Gives stop r v) (f : α → β) :
    Gives stop (r >>= fun (a, s) => pure (f a, s)) (v.map f) := by
  cases h with
  | ok hs => exact .ok hs
  | error => exact .error

end Gives

/-! ### Strings -/

private theorem readEscape_short {letter c : Char} (h : shortEscape letter = some c) (s : List Char) :
    readEscape (letter :: s) = .ok (c, s) := by
  have hu : letter ≠ 'u' := by
    rintro rfl
    exact absurd (h.symm.trans (show shortEscape 'u' = none from rfl)) nofun
  simp only [readEscape, if_neg hu, h]

private theorem readEscape_code {a b c d : Char} {n : Nat} (h : hexNumber a b c d = some n)
    (s : List Char) :
    readEscape ('u' :: a :: b :: c :: d :: s) =
      if 0xdc00 ≤ n ∧ n ≤ 0xdfff then .error .malformed
      else if 0xd800 ≤ n ∧ n ≤ 0xdbff then readLowCode n s else .ok (Char.ofNat n, s) := by
  simp only [readEscape, if_true, readCoded, readCode, h]
  rfl

private theorem readLowCode_code {a b c d : Char} {m : Nat} (h : hexNumber a b c d = some m)
    (high : Nat) (s : List Char) :
    readLowCode high ('\\' :: 'u' :: a :: b :: c :: d :: s) =
      if 0xdc00 ≤ m ∧ m ≤ 0xdfff then .ok (paired high m, s) else .error .malformed := by
  simp only [readLowCode, readCode, h]
  rfl

/-- Something else than the other half of a pair. -/
private theorem readLowCode_spell (high : Nat) {glyphs : List Glyph} (t : List Char)
    (h : ∀ a b c d m hm rest, glyphs ≠ .code a b c d m hm :: rest) :
    ∃ e, readLowCode high (spell glyphs t) = .error e := by
  unfold readLowCode
  split
  · exact ⟨_, rfl⟩
  · exact ⟨_, rfl⟩
  · rename_i heq
    cases glyphs with
    | nil => cases heq
    | cons glyph rest =>
      cases glyph with
      | plain c hc => exact absurd (List.cons.inj heq).1 hc.2.1
      | short letter c hc =>
        cases (List.cons.inj (List.cons.inj heq).2).1
        exact absurd (hc.symm.trans (show shortEscape 'u' = none from rfl)) nofun
      | code a b c d m hm => exact absurd rfl (h a b c d m hm rest)
  · exact ⟨_, rfl⟩

private theorem readChars_plain {c : Char} (h : c ≠ '\x22' ∧ c ≠ '\\' ∧ 0x20 ≤ c.toNat)
    (s : List Char) :
    readChars (c :: s) = readChars s >>= fun (text, t) => pure (c :: text, t) := by
  rw [readChars, if_neg h.1, if_neg h.2.1, if_neg (Nat.not_lt.mpr h.2.2)]
  cases readChars s <;> rfl

private theorem readChars_escaped {c : Char} {r s : List Char} (he : readEscape r = .ok (c, s)) :
    readChars ('\\' :: r) = readChars s >>= fun (text, t) => pure (c :: text, t) := by
  rw [readChars, if_neg (by decide), if_pos rfl]
  split
  · rename_i hr
    cases he.symm.trans hr
  · rename_i hr
    cases he.symm.trans hr
    cases readChars s <;> rfl

private theorem readChars_broken {e : Fault} {r : List Char} (he : readEscape r = .error e) :
    readChars ('\\' :: r) = .error e := by
  rw [readChars, if_neg (by decide), if_pos rfl]
  split
  · rename_i hr
    cases he.symm.trans hr
    rfl
  · rename_i hr
    cases he.symm.trans hr

theorem readChars_spell (glyphs : List Glyph) (t : List Char) :
    Gives (· = t) (readChars (spell glyphs t)) (decode glyphs) := by
  induction glyphs using decode.induct with
  | case1 =>
    rw [spell, readChars, if_pos rfl]
    exact .ok rfl
  | case2 c h glyphs ih =>
    rw [spell, Glyph.chars, List.singleton_append, readChars_plain h]
    exact ih.map (c :: ·)
  | case3 letter c h glyphs ih =>
    rw [show spell (.short letter c h :: glyphs) t = '\\' :: letter :: spell glyphs t from rfl,
      readChars_escaped (readEscape_short h _)]
    exact ih.map (c :: ·)
  | case4 a b c d n h glyphs hl =>
    have he := readEscape_code h (spell glyphs t)
    rw [if_pos hl] at he
    rw [decode.eq_def]
    simp only [if_pos hl]
    exact readChars_broken he ▸ .error
  | case5 a b c d n h hl hh a' b' c' d' m hm glyphs hl' ih =>
    have he := readEscape_code h ('\\' :: 'u' :: a' :: b' :: c' :: d' :: spell glyphs t)
    rw [if_neg hl, if_pos hh, readLowCode_code hm, if_pos hl'] at he
    simp only [decode, if_neg hl, if_pos hh, if_pos hl']
    exact readChars_escaped he ▸ ih.map (paired n m :: ·)
  | case6 a b c d n h hl hh a' b' c' d' m hm glyphs hl' =>
    have he := readEscape_code h ('\\' :: 'u' :: a' :: b' :: c' :: d' :: spell glyphs t)
    rw [if_neg hl, if_pos hh, readLowCode_code hm, if_neg hl'] at he
    simp only [decode, if_neg hl, if_pos hh, if_neg hl']
    exact readChars_broken he ▸ .error
  | case7 a b c d n h glyphs hl hh hn =>
    obtain ⟨e, hlow⟩ := readLowCode_spell n t fun a b c d m hm rest he => hn a b c d m hm rest he
    have he := readEscape_code h (spell glyphs t)
    rw [if_neg hl, if_pos hh, hlow] at he
    have hd : decode (.code a b c d n h :: glyphs) = none := by
      rw [decode, if_neg hl, if_pos hh]
      exact hn
    rw [hd]
    exact readChars_broken he ▸ .error
  | case8 a b c d n h glyphs hl hh ih =>
    have he := readEscape_code h (spell glyphs t)
    rw [if_neg hl, if_neg hh] at he
    rw [decode.eq_def]
    simp only [if_neg hl, if_neg hh]
    exact readChars_escaped he ▸ ih.map (Char.ofNat n :: ·)

/-- A string in any spelling is read as the text it stands for. -/
theorem readString_spell (glyphs : List Glyph) (t : List Char) :
    Gives (· = t) (readString (spell glyphs t)) (said? glyphs) :=
  (readChars_spell glyphs t).map String.ofList

/-! ### Numbers -/

/-- The word that a number is, if it is written with digits only and fits 64 bits. -/
def Numeral.word? (numeral : Numeral) : Option Nat :=
  let n := ofDigits numeral.whole.chars
  if numeral.IsPlain ∧ n < UInt64.size then some n else none

/-- No word was read. -/
def Wordless (r : Except Fault (Number × List Char)) : Prop :=
  ∀ n s, r ≠ .ok (.integer (.ofNat n), s)

private theorem wordless_readScale (whole fraction s : List Char) :
    Wordless (readScale whole fraction s) := by
  have scaled (r : Except Fault (Int × List Char)) : Wordless (r >>= fun p =>
      if Decimal.isTooLarge ⟨whole, fraction, p.1⟩ then .error .malformed
      else .ok (.floating, p.2)) := by
    intro n t h
    cases r with
    | error e => cases h
    | ok p =>
      simp only [bind, Except.bind] at h
      split at h <;> cases h
  unfold readScale
  dsimp only
  split <;> exact scaled _

private theorem wordless_wholeNumber {negative : Bool} {whole : List Char}
    (h : negative = false → UInt64.size ≤ ofDigits whole) (t : List Char) :
    Wordless ((wholeNumber negative whole).map fun n => (n, t)) := by
  intro n s he
  cases negative with
  | true =>
    simp only [wholeNumber, if_true] at he
    split at he
    · rename_i hpos
      simp only [Except.map, Except.ok.injEq, Prod.mk.injEq, Number.integer.injEq,
        Int.ofNat_eq_natCast] at he
      omega
    · split at he <;> cases he
  | false =>
    simp only [wholeNumber, Bool.false_eq_true, if_false, if_neg (Nat.not_lt.mpr (h rfl))] at he
    split at he <;> cases he

namespace Numeral

variable (numeral : Numeral) {t : List Char}

theorem readNumber_onto (ht : Ends t) :
    readNumber (numeral.onto t) =
      readFraction numeral.negative numeral.whole.chars (numeral.fractional t) := by
  have hm (negative : Bool) := readMagnitude_append negative numeral.whole.isDigit
    numeral.whole.ne_nil numeral.zero (numeral.isDigit_head_fractional ht)
  obtain ⟨c, cs, hc, hd⟩ := numeral.whole.exists_cons
  rw [onto]
  cases numeral.negative with
  | true => exact hm true
  | false =>
    rw [← hm false, if_neg Bool.false_ne_true, magnitude, hc]
    unfold readNumber
    split
    · rename_i heq
      cases heq
      cases hd
    · rfl

theorem wordless_readFraction (ht : Ends t)
    (h : ¬ (numeral.IsPlain ∧ ofDigits numeral.whole.chars < UInt64.size)) :
    Wordless (readFraction numeral.negative numeral.whole.chars (numeral.fractional t)) := by
  rw [fractional]
  cases hf : numeral.fraction with
  | some digits =>
    obtain ⟨c, cs, hc, hd⟩ := digits.exists_cons
    simp only [hc, List.cons_append, readFraction, if_pos hd]
    exact wordless_readScale _ _ _
  | none =>
    dsimp only
    rw [scaled]
    cases he : numeral.exponent with
    | some e =>
      obtain hm | hm := e.isMark <;>
        · simp only [hm, readFraction]
          exact wordless_readScale _ _ _
    | none =>
      rw [readFraction_ends _ ht]
      refine wordless_wholeNumber (fun hs => Nat.not_lt.mp fun hlt => h ⟨⟨hs, hf, he⟩, hlt⟩) t

theorem readNumber_plain (ht : Ends t) (hp : numeral.IsPlain)
    (hn : ofDigits numeral.whole.chars < UInt64.size) :
    readNumber (numeral.onto t) = .ok (.integer (ofDigits numeral.whole.chars), t) := by
  obtain ⟨hs, hf, he⟩ := hp
  have hft : numeral.fractional t = t := by rw [fractional, hf, scaled, he]
  rw [numeral.readNumber_onto ht, hs, hft, readFraction_ends false ht]
  simp only [wholeNumber, Bool.false_eq_true, if_false, if_pos hn]
  rfl

theorem readNat_onto (expected : String) (ht : Ends t) :
    Gives (· = t) (readNat expected (numeral.onto t)) numeral.word? := by
  obtain ⟨c, s, hc, hopens⟩ := (Source.number numeral).opens t
  rw [Source.onto] at hc
  have hbegins : c = '-' ∨ c.isDigit = true := by
    cases hopens with
    | minus => exact .inl rfl
    | digit hd => exact .inr hd
  rw [readNat, hc, skipSpace_cons hopens.isSpace]
  simp only [if_pos hbegins, ← hc]
  rw [word?]
  by_cases h : numeral.IsPlain ∧ ofDigits numeral.whole.chars < UInt64.size
  · rw [numeral.readNumber_plain ht h.1 h.2, if_pos h]
    exact .ok rfl
  · have hw := numeral.wordless_readFraction ht h
    rw [numeral.readNumber_onto ht, if_neg h]
    generalize readFraction numeral.negative numeral.whole.chars (numeral.fractional t) = r at hw
    split
    · exact .error
    · exact .error
    · exact absurd rfl (hw _ _)
    · exact .error

end Numeral

end Trampoline.Json
