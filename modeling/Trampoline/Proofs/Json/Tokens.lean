import Trampoline.Json.Format

/-!
Single tokens of JSON text. Whatever is written of a string, a number or a flag is read back as it was,
and white space in front of a value makes no difference.
-/
namespace Trampoline.Json

/-! ### White space -/

/-- Text that consists of white space. -/
def Blank (s : List Char) : Prop :=
  ∀ c ∈ s, isSpace c = true

theorem Blank.nil : Blank [] :=
  nofun

theorem skipSpace_append {s : List Char} (h : Blank s) (t : List Char) :
    skipSpace (s ++ t) = skipSpace t :=
  List.dropWhile_append_of_pos h

theorem skipSpace_cons {c : Char} (h : isSpace c = false) (s : List Char) :
    skipSpace (c :: s) = c :: s :=
  List.dropWhile_cons_of_neg (by simp [h])

theorem readColon_cons (s : List Char) : readColon (':' :: s) = .ok s :=
  rfl

theorem readClosing_cons {c : Char} (h : isSpace c = false) {s : List Char} (hs : Blank s)
    (t : List Char) : readClosing c (s ++ c :: t) = .ok t := by
  rw [readClosing, skipSpace_append hs, skipSpace_cons h]
  exact if_pos rfl

/-- A comma, except in front of the first entry. -/
def separator (first : Bool) : List Char :=
  if first then [] else [',']

theorem nextEntry_entry {closing c : Char} (hc : isSpace c = false) (hn : c ≠ closing)
    (hs : closing ≠ ',') (first : Bool) {s : List Char} (h : Blank s) (t : List Char) :
    nextEntry closing first (separator first ++ (s ++ c :: t)) = .ok (some (c :: t)) := by
  cases first with
  | true =>
    simp only [nextEntry, separator, if_true, List.nil_append, skipSpace_append h, skipSpace_cons hc]
    exact if_neg hn
  | false =>
    simp only [nextEntry, separator, Bool.false_eq_true, if_false, List.singleton_append,
      skipSpace_cons (c := ',') rfl, if_neg (Ne.symm hs), if_true, skipSpace_append h,
      skipSpace_cons hc, if_neg hn]

theorem nextEntry_closing {closing : Char} (hc : isSpace closing = false) (first : Bool)
    {s : List Char} (h : Blank s) (t : List Char) :
    nextEntry closing first (s ++ closing :: t) = .ok none := by
  rw [nextEntry, skipSpace_append h, skipSpace_cons hc]
  exact if_pos rfl

/-! ### Strings -/

/-- The codes of control characters are written with four digits, of which the last two count. -/
private theorem hexNumber_control : ∀ n, n < 0x20 →
    hexNumber '0' '0' (Nat.digitChar (n / 16)) (Nat.digitChar (n % 16)) = some n := by
  decide

private theorem readEscape_control {c : Char} (h : c.toNat < 0x20) (s : List Char) :
    readEscape ('u' :: '0' :: '0' :: Nat.digitChar (c.toNat / 16) :: Nat.digitChar (c.toNat % 16) :: s) =
      .ok (c, s) := by
  simp only [readEscape, if_true, readCoded, readCode, hexNumber_control _ h]
  have hl : ¬ (0xdc00 ≤ c.toNat ∧ c.toNat ≤ 0xdfff) := by omega
  have hh : ¬ (0xd800 ≤ c.toNat ∧ c.toNat ≤ 0xdbff) := by omega
  simp only [bind, Except.bind, if_neg hl, if_neg hh, Char.ofNat_toNat]

private theorem readChars_escape {c : Char} {r s t text : List Char} (he : readEscape r = .ok (c, s))
    (h : readChars s = .ok (text, t)) : readChars ('\\' :: r) = .ok (c :: text, t) := by
  rw [readChars, if_neg (by decide), if_pos rfl]
  split
  · rename_i e hr
    rw [he] at hr
    cases hr
  · rename_i d rest hr
    rw [he] at hr
    cases hr
    rw [h]

/-- A character is written in a form that is read as this character. -/
theorem readChars_escapeChar (c : Char) {s t text : List Char} (h : readChars s = .ok (text, t)) :
    readChars (escapeChar c ++ s) = .ok (c :: text, t) := by
  have escaped {e : List Char} (he : readEscape (e ++ s) = .ok (c, s)) :
      readChars ('\\' :: e ++ s) = .ok (c :: text, t) :=
    readChars_escape he h
  unfold escapeChar
  split
  · subst c
    exact escaped rfl
  split
  · subst c
    exact escaped rfl
  split
  · subst c
    exact escaped rfl
  split
  · subst c
    exact escaped rfl
  split
  · subst c
    exact escaped rfl
  split
  · subst c
    exact escaped rfl
  split
  · subst c
    exact escaped rfl
  split
  · rename_i hc
    exact escaped (readEscape_control hc s)
  · rename_i hq hb _ _ _ _ _ hn
    rw [List.singleton_append, readChars]
    simp only [if_neg hq, if_neg hb, if_neg hn, h]

theorem readString_writeString (text : String) (s : List Char) :
    readString (text.toList.flatMap escapeChar ++ '\x22' :: s) = .ok (text, s) := by
  have h (cs : List Char) : readChars (cs.flatMap escapeChar ++ '\x22' :: s) = .ok (cs, s) := by
    induction cs with
    | nil =>
      rw [List.flatMap_nil, List.nil_append, readChars]
      exact if_pos rfl
    | cons c cs ih =>
      rw [List.flatMap_cons, List.append_assoc]
      exact readChars_escapeChar c ih
  simp only [readString, h, bind, Except.bind, pure, Except.pure, String.ofList_toList]

/-! ### Numbers -/

/-- Text before which a number ends. -/
def Ends (s : List Char) : Prop :=
  ∀ c ∈ s.head?, c.isDigit = false ∧ c ≠ '.' ∧ c ≠ 'e' ∧ c ≠ 'E'

theorem ends_cons {c : Char} (s : List Char)
    (h : c.isDigit = false ∧ c ≠ '.' ∧ c ≠ 'e' ∧ c ≠ 'E') : Ends (c :: s) := by
  intro d hd
  cases hd
  exact h

theorem Blank.ends {s : List Char} (h : Blank s) {t : List Char} (ht : Ends t) : Ends (s ++ t) := by
  cases s with
  | nil => exact ht
  | cons c s =>
    refine ends_cons _ ?_
    have hc := h c List.mem_cons_self
    simp only [isSpace, Bool.or_eq_true, beq_iff_eq] at hc
    obtain ((rfl | rfl) | rfl) | rfl := hc <;> decide

theorem isSpace_of_isDigit {c : Char} (h : c.isDigit = true) : isSpace c = false := by
  cases hs : isSpace c with
  | false => rfl
  | true =>
    simp only [isSpace, Bool.or_eq_true, beq_iff_eq] at hs
    obtain ((rfl | rfl) | rfl) | rfl := hs <;> cases h

theorem isDigit_of_mem_numberChars {c : Char} {n : Nat} (h : c ∈ Tree.numberChars n) :
    c.isDigit = true :=
  Nat.isDigit_of_mem_toDigits (by decide) (by decide) h

/-- Only zero is written with a leading zero. -/
private theorem head_numberChars {n : Nat} {c : Char} {s : List Char}
    (h : Tree.numberChars n = c :: s) (hn : 0 < n) : c ≠ '0' := by
  induction n using Nat.strongRecOn generalizing s with
  | ind n ih =>
    rw [Tree.numberChars] at h
    obtain hl | hl := Nat.lt_or_ge n 10
    · rw [Nat.toDigits_of_lt_base hl] at h
      cases h
      have hd : ∀ n, n < 10 → 0 < n → n.digitChar ≠ '0' := by decide
      exact hd n hl hn
    · rw [Nat.toDigits_of_base_le (by decide) hl] at h
      cases hf : Nat.toDigits 10 (n / 10) with
      | nil => exact absurd hf Nat.toDigits_ne_nil
      | cons d ds =>
        rw [hf] at h
        cases h
        exact ih (n / 10) (by omega) hf (by omega)

theorem readFraction_ends (negative : Bool) {whole s : List Char} (hs : Ends s) :
    readFraction negative whole s = (wholeNumber negative whole).map fun n => (n, s) := by
  unfold readFraction
  split
  · exact absurd rfl (hs '.' rfl).2.1
  · exact absurd rfl (hs 'e' rfl).2.2.1
  · exact absurd rfl (hs 'E' rfl).2.2.2
  · cases wholeNumber negative whole <;> rfl

theorem digits_append {d s : List Char} (hd : ∀ c ∈ d, c.isDigit = true)
    (hs : ∀ c ∈ s.head?, c.isDigit = false) : digits (d ++ s) = d ∧ afterDigits (d ++ s) = s := by
  have h : digits s = [] ∧ afterDigits s = s := by
    cases s with
    | nil => exact ⟨rfl, rfl⟩
    | cons c s =>
      have hc := hs c rfl
      exact ⟨List.takeWhile_cons_of_neg (by simp [hc]), List.dropWhile_cons_of_neg (by simp [hc])⟩
  rw [digits, afterDigits, List.takeWhile_append_of_pos hd, List.dropWhile_append_of_pos hd]
  exact ⟨by rw [← digits, h.1, List.append_nil], h.2⟩

/-- The digits in front of a fraction or an exponent, without a leading zero. -/
theorem readMagnitude_append (negative : Bool) {whole s : List Char}
    (hd : ∀ c ∈ whole, c.isDigit = true) (hn : whole ≠ [])
    (hz : whole.head? = some '0' → whole = ['0']) (hs : ∀ c ∈ s.head?, c.isDigit = false) :
    readMagnitude negative (whole ++ s) = readFraction negative whole s := by
  cases whole with
  | nil => exact absurd rfl hn
  | cons c cs =>
    by_cases hc : c = '0'
    · subst hc
      obtain rfl : cs = [] := (List.cons.inj (hz rfl)).2
      simp only [List.cons_append, List.nil_append, readMagnitude, if_true]
      cases s with
      | nil => rfl
      | cons d s => exact if_neg (by rw [hs d rfl]; decide)
    · obtain ⟨hw, ha⟩ := digits_append hd hs
      rw [List.cons_append] at hw ha ⊢
      simp only [readMagnitude, if_neg hc, if_pos (hd c List.mem_cons_self), hw, ha]

private theorem wholeNumber_numberChars {n : Nat} (hn : n < UInt64.size) :
    wholeNumber false (Tree.numberChars n) = .ok (.integer n) := by
  have ho : ofDigits (Tree.numberChars n) = n := Nat.ofDigitChars_toDigits (by decide) (by decide)
  simp only [wholeNumber, Bool.false_eq_true, if_false, ho, if_pos hn]

/-- A word is read as far as it goes. -/
theorem readNumber_numberChars {n : Nat} (hn : n < UInt64.size) {s : List Char} (hs : Ends s) :
    readNumber (Tree.numberChars n ++ s) = .ok (.integer n, s) := by
  have hd : ∀ c ∈ Tree.numberChars n, c.isDigit = true := fun c => isDigit_of_mem_numberChars
  have hz : (Tree.numberChars n).head? = some '0' → Tree.numberChars n = ['0'] := by
    intro h
    obtain rfl | hpos := Nat.eq_zero_or_pos n
    · rfl
    · cases hc : Tree.numberChars n with
      | nil => exact absurd hc Nat.toDigits_ne_nil
      | cons c cs =>
        rw [hc] at h
        cases h
        exact absurd rfl (head_numberChars hc hpos)
  have hread : readNumber (Tree.numberChars n ++ s) = readMagnitude false (Tree.numberChars n ++ s) := by
    unfold readNumber
    split
    · rename_i heq
      cases hc : Tree.numberChars n with
      | nil => exact absurd hc Nat.toDigits_ne_nil
      | cons c cs =>
        rw [hc] at heq hd
        cases heq
        cases hd '-' List.mem_cons_self
    · rfl
  rw [hread, readMagnitude_append false hd Nat.toDigits_ne_nil hz fun c hc => (hs c hc).1,
    readFraction_ends false hs, wholeNumber_numberChars hn]
  rfl

theorem readNat_numberChars (expected : String) {n : Nat} (hn : n < UInt64.size) {s : List Char}
    (hs : Ends s) : readNat expected (Tree.numberChars n ++ s) = .ok (n, s) := by
  have hr := readNumber_numberChars hn hs
  cases hc : Tree.numberChars n with
  | nil => exact absurd hc Nat.toDigits_ne_nil
  | cons c cs =>
    have hdigit : c.isDigit = true :=
      isDigit_of_mem_numberChars (n := n) (hc ▸ List.mem_cons_self)
    rw [hc] at hr
    rw [List.cons_append, readNat, skipSpace_cons (isSpace_of_isDigit hdigit)]
    simp only [hdigit, or_true, if_true]
    rw [← List.cons_append, hr]

/-! ### Choices -/

theorem findChoice_get {names : List String} (h : names.Nodup) (i : Fin names.length) :
    findChoice (names.get i) names = some i := by
  induction names with
  | nil => exact i.elim0
  | cons name names ih =>
    obtain ⟨hn, hd⟩ := List.nodup_cons.mp h
    cases i using Fin.cases with
    | zero => exact if_pos rfl
    | succ i =>
      have hne : name ≠ names.get i := fun he => hn (he ▸ List.get_mem names i)
      change (if name = names.get i then some 0 else (findChoice (names.get i) names).map Fin.succ) = _
      rw [if_neg hne, ih hd]
      rfl

end Trampoline.Json
