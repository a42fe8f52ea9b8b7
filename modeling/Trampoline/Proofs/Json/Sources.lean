import Trampoline.Proofs.Json.Tokens

/-!
JSON as it is written. A source is a JSON value with its whole spelling: the white space inside it, how
each character of a string is escaped, and how a number is written. It follows the grammar of JSON and
knows nothing of what is expected in a document.
-/
namespace Trampoline.Json

/-- White space, maybe none. -/
structure Space where
  chars : List Char
  blank : Blank chars

theorem Space.blank_append (space inner : Space) : Blank (space.chars ++ inner.chars) :=
  fun c hc => (List.mem_append.mp hc).elim (space.blank c) (inner.blank c)

/-- How a character of a string is written. -/
inductive Glyph where
  | plain (c : Char) (h : c ≠ '\x22' ∧ c ≠ '\\' ∧ 0x20 ≤ c.toNat)
  /-- A letter behind a backslash. -/
  | short (letter c : Char) (h : shortEscape letter = some c)
  /-- Four digits in base sixteen. -/
  | code (a b c d : Char) (n : Nat) (h : hexNumber a b c d = some n)

def Glyph.chars : Glyph → List Char
  | plain c _ => [c]
  | short letter _ _ => ['\\', letter]
  | code a b c d _ _ => ['\\', 'u', a, b, c, d]

/-- The text of a string behind its opening quote, and what comes after it. -/
def spell : List Glyph → List Char → List Char
  | [], t => '\x22' :: t
  | glyph :: glyphs, t => glyph.chars ++ spell glyphs t

/-- One digit or more. -/
structure Digits where
  chars : List Char
  isDigit : ∀ c ∈ chars, c.isDigit = true
  ne_nil : chars ≠ []

structure Exponent where
  mark : Char
  isMark : mark = 'e' ∨ mark = 'E'
  sign : List Char
  isSign : sign = [] ∨ sign = ['+'] ∨ sign = ['-']
  digits : Digits

/-- How a number is written. -/
structure Numeral where
  negative : Bool
  whole : Digits
  /-- Nothing stands behind a leading zero. -/
  zero : whole.chars.head? = some '0' → whole.chars = ['0']
  fraction : Option Digits
  exponent : Option Exponent

namespace Numeral

/-- The exponent in front of what comes after the number. -/
def scaled (numeral : Numeral) (t : List Char) : List Char :=
  match numeral.exponent with
  | none => t
  | some e => e.mark :: (e.sign ++ (e.digits.chars ++ t))

def fractional (numeral : Numeral) (t : List Char) : List Char :=
  match numeral.fraction with
  | none => numeral.scaled t
  | some digits => '.' :: (digits.chars ++ numeral.scaled t)

def magnitude (numeral : Numeral) (t : List Char) : List Char :=
  numeral.whole.chars ++ numeral.fractional t

def onto (numeral : Numeral) (t : List Char) : List Char :=
  if numeral.negative then '-' :: numeral.magnitude t else numeral.magnitude t

/-- A number that is written with digits only. -/
def IsPlain (numeral : Numeral) : Prop :=
  numeral.negative = false ∧ numeral.fraction = none ∧ numeral.exponent = none

instance (numeral : Numeral) : Decidable numeral.IsPlain :=
  inferInstanceAs (Decidable (_ ∧ _ ∧ _))

end Numeral

mutual

/-- A JSON value as it is written. -/
inductive Source where
  | null
  | flag (value : Bool)
  | number (numeral : Numeral)
  | string (glyphs : List Glyph)
  | array (items : Items)
  | object (members : Members)

/-- The items of an array, with the white space around them. -/
inductive Items where
  | nil (inner : Space)
  | cons (before : Space) (source : Source) (after : Space) (rest : Items)

/-- The members of an object, with the white space around their keys and values. -/
inductive Members where
  | nil (inner : Space)
  | cons (before : Space) (key : List Glyph) (gap gap' : Space) (source : Source) (after : Space)
    (rest : Members)

end

mutual

/-- The text of a value in front of what comes after it. -/
def Source.onto : Source → List Char → List Char
  | .null, t => "null".toList ++ t
  | .flag value, t => Tree.flagChars value ++ t
  | .number numeral, t => numeral.onto t
  | .string glyphs, t => '\x22' :: spell glyphs t
  | .array items, t => '[' :: items.onto true t
  | .object members, t => '\x7b' :: members.onto true t

/-- The text of items up to the closing bracket. -/
def Items.onto : Items → (first : Bool) → List Char → List Char
  | .nil inner, _, t => inner.chars ++ ']' :: t
  | .cons before source after rest, first, t =>
    separator first ++ (before.chars ++ source.onto (after.chars ++ rest.onto false t))

/-- The text of members up to the closing bracket. -/
def Members.onto : Members → (first : Bool) → List Char → List Char
  | .nil inner, _, t => inner.chars ++ '\x7d' :: t
  | .cons before key gap gap' source after rest, first, t =>
    separator first ++ (before.chars ++ '\x22' :: spell key (gap.chars ++ ':' ::
      (gap'.chars ++ source.onto (after.chars ++ rest.onto false t))))

end

def Items.sources : Items → List Source
  | .nil _ => []
  | .cons _ source _ rest => source :: rest.sources

/-! ### Strings -/

/-- The character that a pair of codes stands for. -/
def paired (high low : Nat) : Char :=
  Char.ofNat (0x10000 + 1024 * (high - 0xd800) + (low - 0xdc00))

/-- The text of a string. There is none if half of a pair of codes is missing. -/
def decode : List Glyph → Option (List Char)
  | [] => some []
  | .plain c _ :: glyphs => (decode glyphs).map (c :: ·)
  | .short _ c _ :: glyphs => (decode glyphs).map (c :: ·)
  | .code _ _ _ _ n _ :: glyphs =>
    if 0xdc00 ≤ n ∧ n ≤ 0xdfff then none
    else if 0xd800 ≤ n ∧ n ≤ 0xdbff then
      match glyphs with
      | .code _ _ _ _ m _ :: glyphs =>
        if 0xdc00 ≤ m ∧ m ≤ 0xdfff then (decode glyphs).map (paired n m :: ·) else none
      | _ => none
    else (decode glyphs).map (Char.ofNat n :: ·)

/-- The text that a string holds. -/
def said? (glyphs : List Glyph) : Option String :=
  (decode glyphs).map String.ofList

/-! ### Members -/

namespace Members

/-- The values of the members with a key, however the key is spelled. -/
def under (key : String) : Members → List Source
  | .nil _ => []
  | .cons _ glyphs _ _ source _ rest =>
    if said? glyphs = some key then source :: rest.under key else rest.under key

/-- Whether all keys are texts. -/
def areLegible : Members → Bool
  | .nil _ => true
  | .cons _ glyphs _ _ _ _ rest => (said? glyphs).isSome && rest.areLegible

def count : Members → Nat
  | .nil _ => 0
  | .cons _ _ _ _ _ _ rest => rest.count + 1

end Members

/-! ### How texts begin -/

theorem Digits.exists_cons (digits : Digits) :
    ∃ c s, digits.chars = c :: s ∧ c.isDigit = true := by
  obtain ⟨chars, hd, hn⟩ := digits
  cases chars with
  | nil => exact absurd rfl hn
  | cons c s => exact ⟨c, s, rfl, hd c List.mem_cons_self⟩

theorem Digits.split (digits : Digits) {s : List Char} (hs : ∀ c ∈ s.head?, c.isDigit = false) :
    Json.digits (digits.chars ++ s) = digits.chars ∧ afterDigits (digits.chars ++ s) = s :=
  digits_append digits.isDigit hs

theorem ne_of_isDigit {c d : Char} (hc : c.isDigit = true) (hd : d.isDigit = false) : c ≠ d := by
  rintro rfl
  cases hc.symm.trans hd

namespace Numeral

variable (numeral : Numeral) {t : List Char}

theorem isDigit_head_scaled (ht : Ends t) : ∀ c ∈ (numeral.scaled t).head?, c.isDigit = false := by
  intro c hc
  rw [scaled] at hc
  split at hc
  · exact (ht c hc).1
  · rename_i e _
    cases hc
    obtain h | h := e.isMark <;> rw [h] <;> rfl

theorem isDigit_head_fractional (ht : Ends t) :
    ∀ c ∈ (numeral.fractional t).head?, c.isDigit = false := by
  intro c hc
  rw [fractional] at hc
  split at hc
  · exact numeral.isDigit_head_scaled ht c hc
  · cases hc
    rfl

end Numeral

/-- The character that a value begins with. -/
inductive Opens : Source → Char → Prop
  | null : Opens .null 'n'
  | yes : Opens (.flag true) 't'
  | no : Opens (.flag false) 'f'
  | minus {numeral : Numeral} : Opens (.number numeral) '-'
  | digit {numeral : Numeral} {c : Char} : c.isDigit = true → Opens (.number numeral) c
  | string {glyphs : List Glyph} : Opens (.string glyphs) '\x22'
  | array {items : Items} : Opens (.array items) '['
  | object {members : Members} : Opens (.object members) '\x7b'

theorem Source.opens (source : Source) (t : List Char) :
    ∃ c s, source.onto t = c :: s ∧ Opens source c := by
  cases source with
  | null => exact ⟨_, "ull".toList ++ t, rfl, .null⟩
  | flag value =>
    cases value with
    | true => exact ⟨_, "rue".toList ++ t, rfl, .yes⟩
    | false => exact ⟨_, "alse".toList ++ t, rfl, .no⟩
  | number numeral =>
    obtain ⟨c, s, hc, hd⟩ := numeral.whole.exists_cons
    rw [Source.onto, Numeral.onto, Numeral.magnitude, hc]
    split
    · exact ⟨'-', _, rfl, .minus⟩
    · exact ⟨c, _, rfl, .digit hd⟩
  | string glyphs => exact ⟨_, _, rfl, .string⟩
  | array items => exact ⟨_, _, rfl, .array⟩
  | object members => exact ⟨_, _, rfl, .object⟩

namespace Opens

variable {source : Source} {c : Char}

theorem isSpace (h : Opens source c) : isSpace c = false := by
  cases h with
  | digit hd => exact isSpace_of_isDigit hd
  | _ => rfl

theorem ne_closing (h : Opens source c) : c ≠ ']' := by
  cases h with
  | digit hd => exact ne_of_isDigit hd rfl
  | _ => decide

end Opens

theorem Items.ends (items : Items) (space : Space) (t : List Char) :
    Ends (space.chars ++ items.onto false t) := by
  refine space.blank.ends ?_
  cases items with
  | nil inner => exact inner.blank.ends (ends_cons _ (by decide))
  | cons _ _ _ _ => exact ends_cons _ (by decide)

theorem Members.ends (members : Members) (space : Space) (t : List Char) :
    Ends (space.chars ++ members.onto false t) := by
  refine space.blank.ends ?_
  cases members with
  | nil inner => exact inner.blank.ends (ends_cons _ (by decide))
  | cons _ _ _ _ _ _ _ => exact ends_cons _ (by decide)

end Trampoline.Json
