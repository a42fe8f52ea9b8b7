import Trampoline.Json.Number
import Trampoline.Json.Strings

/-!
Passing over a JSON value that nobody wants. The value is checked for its notation at any depth, but
its numbers may have any size and its strings any codes. The brackets that are still open are kept
in a list, so the depth of a value costs no more than its length.
-/
namespace Trampoline.Json

def isSpace (c : Char) : Bool :=
  c == ' ' || c == '\n' || c == '\t' || c == '\r'

def skipSpace (s : List Char) : List Char :=
  s.dropWhile isSpace

def readWord : List Char → List Char → Except Fault (List Char)
  | [], s => .ok s
  | _ :: _, [] => .error .cutShort
  | w :: word, c :: s => if c = w then readWord word s else .error .malformed

/-- Passes over digits, of which there must be one at least. -/
def skipDigits : List Char → Except Fault (List Char)
  | [] => .error .malformed
  | c :: rest => if c.isDigit then .ok (afterDigits rest) else .error .malformed

/-- Passes over the exponent of a number, if it has one. -/
def skipExponent : List Char → Except Fault (List Char)
  | 'e' :: rest => skipDigits (match rest with | '+' :: r => r | '-' :: r => r | r => r)
  | 'E' :: rest => skipDigits (match rest with | '+' :: r => r | '-' :: r => r | r => r)
  | s => .ok s

/-- Passes over a number behind its sign. Unlike a number that is read, one that stops too early is
taken for a broken one. -/
def skipNumber (s : List Char) : Except Fault (List Char) :=
  match s with
  | [] => .error .malformed
  | c :: rest =>
    if c.isDigit then
      if c = '0' ∧ (digits rest).isEmpty = false then .error .malformed
      else
        match afterDigits rest with
        | '.' :: r =>
          match skipDigits r with
          | .error e => .error e
          | .ok r => skipExponent r
        | r => skipExponent r
    else .error .malformed

def skipScalar (s : List Char) : Except Fault (List Char) :=
  match s with
  | [] => .error .cutShort
  | c :: rest =>
    if c = 'n' then readWord "ull".toList rest
    else if c = 't' then readWord "rue".toList rest
    else if c = 'f' then readWord "alse".toList rest
    else if c = '-' then skipNumber rest
    else if c.isDigit then skipNumber (c :: rest)
    else if c = '\x22' then skipString rest
    else .error .malformed

/-- A bracket that is still open. -/
inductive Bracket where
  | array
  | object
  deriving DecidableEq

def Bracket.opening : Bracket → Char
  | .array => '['
  | .object => '\x7b'

def Bracket.closing : Bracket → Char
  | .array => ']'
  | .object => '\x7d'

def Bracket.ofChar? (c : Char) : Option Bracket :=
  if c = '[' then some .array else if c = '\x7b' then some .object else none

def readColon (s : List Char) : Except Fault (List Char) :=
  match skipSpace s with
  | [] => .error .cutShort
  | c :: rest => if c = ':' then .ok rest else .error .malformed

/-- Passes over what must stand in front of a value: in an object its key and a colon. -/
def skipKey (openBrackets : List Bracket) (s : List Char) : Except Fault (List Char) :=
  match openBrackets with
  | .object :: _ =>
    match skipSpace s with
    | [] => .error .cutShort
    | c :: rest =>
      if c = '\x22' then
        match skipString rest with
        | .error e => .error e
        | .ok rest => readColon rest
      else .error .malformed
  | _ => .ok s

theorem length_skipSpace_le (s : List Char) : (skipSpace s).length ≤ s.length :=
  (List.dropWhile_suffix isSpace).length_le

theorem length_afterDigits_le (s : List Char) : (afterDigits s).length ≤ s.length :=
  (List.dropWhile_suffix Char.isDigit).length_le

theorem length_of_readWord {word s rest : List Char} (h : readWord word s = .ok rest) :
    rest.length ≤ s.length := by
  fun_induction readWord word s with
  | case1 => cases h; exact Nat.le_refl _
  | case2 => cases h
  | case3 w word s ih => have := ih h; simp only [List.length_cons]; omega
  | case4 => cases h

theorem length_of_skipDigits {s rest : List Char} (h : skipDigits s = .ok rest) :
    rest.length < s.length := by
  unfold skipDigits at h
  split at h
  · cases h
  · split at h
    · cases h
      rename_i tail _
      have := length_afterDigits_le tail
      simp only [List.length_cons]; omega
    · cases h

theorem length_of_skipExponent {s rest : List Char} (h : skipExponent s = .ok rest) :
    rest.length ≤ s.length := by
  unfold skipExponent at h
  split at h
  · have := length_of_skipDigits h
    split at this <;> simp_all only [List.length_cons] <;> omega
  · have := length_of_skipDigits h
    split at this <;> simp_all only [List.length_cons] <;> omega
  · cases h; exact Nat.le_refl _

theorem length_of_skipNumber {s rest : List Char} (h : skipNumber s = .ok rest) :
    rest.length < s.length := by
  unfold skipNumber at h
  split at h
  · cases h
  · rename_i c tail
    have tail_le := length_afterDigits_le tail
    split at h
    · split at h
      · cases h
      · split at h
        · rename_i r hr
          cases hd : skipDigits r with
          | error e => simp [hd] at h
          | ok r' =>
            simp only [hd] at h
            have h1 := length_of_skipDigits hd
            have h2 := length_of_skipExponent h
            simp only [hr, List.length_cons] at tail_le
            simp only [List.length_cons]; omega
        · have := length_of_skipExponent h
          simp only [List.length_cons]; omega
    · cases h

theorem length_of_skipScalar {s rest : List Char} (h : skipScalar s = .ok rest) :
    rest.length < s.length := by
  unfold skipScalar at h
  split at h
  · cases h
  · rename_i c tail
    simp only [List.length_cons]
    split at h
    · have := length_of_readWord h; omega
    · split at h
      · have := length_of_readWord h; omega
      · split at h
        · have := length_of_readWord h; omega
        · split at h
          · have := length_of_skipNumber h; omega
          · split at h
            · have := length_of_skipNumber h; simp only [List.length_cons] at this; omega
            · split at h
              · have := length_of_skipString h; omega
              · cases h

theorem length_of_readColon {s rest : List Char} (h : readColon s = .ok rest) :
    rest.length < s.length := by
  unfold readColon at h
  have := length_skipSpace_le s
  split at h
  · cases h
  · rename_i hs
    rw [hs] at this
    split at h
    · cases h; simp only [List.length_cons] at this; omega
    · cases h

theorem length_of_skipKey {openBrackets : List Bracket} {s rest : List Char}
    (h : skipKey openBrackets s = .ok rest) : rest.length ≤ s.length := by
  unfold skipKey at h
  split at h
  · have := length_skipSpace_le s
    split at h
    · cases h
    · rename_i c tail hs
      rw [hs] at this
      split at h
      · cases hk : skipString tail with
        | error e => simp [hk] at h
        | ok r =>
          simp only [hk] at h
          have h1 := length_of_skipString hk
          have h2 := length_of_readColon h
          simp only [List.length_cons] at this; omega
      · cases h
  · cases h; exact Nat.le_refl _

/-- Passes over the rest of a value inside the given open brackets. With `entry` a value comes next,
in an object behind its key; without it a value has just ended. -/
def skipRest (entry : Bool) (openBrackets : List Bracket) (s : List Char) :
    Except Fault (List Char) :=
  if entry then
    match _hk : skipKey openBrackets s with
    | .error e => .error e
    | .ok s' =>
      match _hs : skipSpace s' with
      | [] => .error .cutShort
      | c :: rest =>
        match Bracket.ofChar? c with
        | some bracket =>
          match _hr : skipSpace rest with
          | [] => .error .cutShort
          | d :: rest' =>
            if d = bracket.closing then skipRest false openBrackets rest'
            else skipRest true (bracket :: openBrackets) rest
        | none =>
          match _hv : skipScalar (c :: rest) with
          | .error e => .error e
          | .ok rest' => skipRest false openBrackets rest'
  else
    match openBrackets with
    | [] => .ok s
    | bracket :: outer =>
      match _hs : skipSpace s with
      | [] => .error .cutShort
      | c :: rest =>
        if c = ',' then skipRest true (bracket :: outer) rest
        else if c = bracket.closing then skipRest false outer rest
        else .error .malformed
termination_by s.length
decreasing_by
  · have h1 := length_of_skipKey _hk
    have h2 := length_skipSpace_le s'
    have h3 := length_skipSpace_le rest
    rw [_hs] at h2
    rw [_hr] at h3
    simp only [List.length_cons] at h2 h3; omega
  · have h1 := length_of_skipKey _hk
    have h2 := length_skipSpace_le s'
    rw [_hs] at h2
    simp only [List.length_cons] at h2; omega
  · have h1 := length_of_skipKey _hk
    have h2 := length_skipSpace_le s'
    have h3 := length_of_skipScalar _hv
    rw [_hs] at h2
    omega
  · have h2 := length_skipSpace_le s
    rw [_hs] at h2
    simp only [List.length_cons] at h2; omega
  · have h2 := length_skipSpace_le s
    rw [_hs] at h2
    simp only [List.length_cons] at h2; omega

def skipValue (s : List Char) : Except Fault (List Char) :=
  skipRest true [] s

end Trampoline.Json
