import Trampoline.Json.Fault

/-!
Strings in JSON text. A character beyond the basic plane may be written as a pair of escapes; reading
refuses half of such a pair, while passing over a string does not look at the codes.
-/
namespace Trampoline.Json

/-- The value of a digit in base sixteen, in either case. -/
def hexValue (c : Char) : Option Nat :=
  if '0' ≤ c ∧ c ≤ '9' then some (c.toNat - '0'.toNat)
  else if 'a' ≤ c ∧ c ≤ 'f' then some (c.toNat - 'a'.toNat + 10)
  else if 'A' ≤ c ∧ c ≤ 'F' then some (c.toNat - 'A'.toNat + 10)
  else none

/-- The number that four digits in base sixteen stand for. -/
def hexNumber (a b c d : Char) : Option Nat := do
  return 4096 * (← hexValue a) + 256 * (← hexValue b) + 16 * (← hexValue c) + (← hexValue d)

def byteSize (s : List Char) : Nat :=
  s.foldl (fun size c => size + c.utf8Size) 0

/-- Reads the four digits of a code. With fewer than four bytes left the text was cut short. -/
def readCode : List Char → Except Fault (Nat × List Char)
  | a :: b :: c :: d :: rest =>
    match hexNumber a b c d with
    | some code => .ok (code, rest)
    | none => .error .malformed
  | s => if byteSize s < 4 then .error .cutShort else .error .malformed

def readLowCode (high : Nat) : List Char → Except Fault (Char × List Char)
  | [] => .error .cutShort
  | '\\' :: [] => .error .cutShort
  | '\\' :: 'u' :: rest => do
    let (low, rest) ← readCode rest
    if 0xdc00 ≤ low ∧ low ≤ 0xdfff then
      .ok (Char.ofNat (0x10000 + 1024 * (high - 0xd800) + (low - 0xdc00)), rest)
    else .error .malformed
  | _ => .error .malformed

/-- Reads a character that is written by its code, or by a pair of them. -/
def readCoded (s : List Char) : Except Fault (Char × List Char) := do
  let (code, rest) ← readCode s
  if 0xdc00 ≤ code ∧ code ≤ 0xdfff then .error .malformed
  else if 0xd800 ≤ code ∧ code ≤ 0xdbff then readLowCode code rest
  else .ok (Char.ofNat code, rest)

def shortEscape (c : Char) : Option Char :=
  if c = '\x22' then some '\x22'
  else if c = '\\' then some '\\'
  else if c = '/' then some '/'
  else if c = 'b' then some '\x08'
  else if c = 'f' then some '\x0c'
  else if c = 'n' then some '\n'
  else if c = 'r' then some '\r'
  else if c = 't' then some '\t'
  else none

/-- Reads an escape behind its backslash. -/
def readEscape : List Char → Except Fault (Char × List Char)
  | [] => .error .cutShort
  | c :: rest =>
    if c = 'u' then readCoded rest
    else match shortEscape c with
      | some d => .ok (d, rest)
      | none => .error .malformed

theorem length_of_readCode {s rest : List Char} {code : Nat}
    (h : readCode s = .ok (code, rest)) : rest.length < s.length := by
  unfold readCode at h
  split at h
  · split at h
    · cases h; simp only [List.length_cons]; omega
    · cases h
  · split at h <;> cases h

theorem length_of_readLowCode {high : Nat} {s rest : List Char} {c : Char}
    (h : readLowCode high s = .ok (c, rest)) : rest.length < s.length := by
  unfold readLowCode at h
  split at h
  · cases h
  · cases h
  · rename_i tail
    cases hc : readCode tail with
    | error e => simp [hc, bind, Except.bind] at h
    | ok p =>
      have hl : p.2.length < tail.length := length_of_readCode hc
      simp only [hc, bind, Except.bind] at h
      split at h
      · simp only [Except.ok.injEq, Prod.mk.injEq] at h
        obtain ⟨_, rfl⟩ := h
        simp only [List.length_cons]; omega
      · cases h
  · cases h

theorem length_of_readCoded {s rest : List Char} {c : Char}
    (h : readCoded s = .ok (c, rest)) : rest.length < s.length := by
  unfold readCoded at h
  cases hc : readCode s with
  | error e => simp [hc, bind, Except.bind] at h
  | ok p =>
    have hl : p.2.length < s.length := length_of_readCode hc
    simp only [hc, bind, Except.bind] at h
    split at h
    · cases h
    · split at h
      · have := length_of_readLowCode h; omega
      · cases h; exact hl

theorem length_of_readEscape {s rest : List Char} {c : Char}
    (h : readEscape s = .ok (c, rest)) : rest.length < s.length := by
  unfold readEscape at h
  split at h
  · cases h
  · split at h
    · have := length_of_readCoded h; simp only [List.length_cons]; omega
    · split at h
      · cases h; simp
      · cases h

/-- Reads a string behind its opening quote, up to and with the closing one. -/
def readChars (s : List Char) : Except Fault (List Char × List Char) :=
  match s with
  | [] => .error .cutShort
  | c :: rest =>
    if c = '\x22' then .ok ([], rest)
    else if c = '\\' then
      match _h : readEscape rest with
      | .error e => .error e
      | .ok (d, rest') =>
        match readChars rest' with
        | .error e => .error e
        | .ok (text, rest) => .ok (d :: text, rest)
    else if c.toNat < 0x20 then .error .malformed
    else
      match readChars rest with
      | .error e => .error e
      | .ok (text, rest) => .ok (c :: text, rest)
termination_by s.length
decreasing_by
  · have := length_of_readEscape _h; simp only [List.length_cons]; omega
  · simp

/-- Reads a string behind its opening quote. -/
def readString (s : List Char) : Except Fault (String × List Char) := do
  let (text, rest) ← readChars s
  return (String.ofList text, rest)

/-- Passes over a string behind its opening quote. Codes must be complete, but any four digits do. -/
def skipString : List Char → Except Fault (List Char)
  | [] => .error .cutShort
  | c :: rest =>
    if c = '\x22' then .ok rest
    else if c = '\\' then
      match rest with
      | [] => .error .cutShort
      | 'u' :: x :: y :: z :: w :: rest =>
        match hexNumber x y z w with
        | some _ => skipString rest
        | none => .error .malformed
      | 'u' :: rest => if byteSize rest < 4 then .error .cutShort else .error .malformed
      | d :: rest =>
        match shortEscape d with
        | some _ => skipString rest
        | none => .error .malformed
    else if c.toNat < 0x20 then .error .malformed
    else skipString rest

theorem length_of_skipString {s rest : List Char} (h : skipString s = .ok rest) :
    rest.length < s.length := by
  fun_induction skipString s <;> simp_all <;> omega

def escapeChar (c : Char) : List Char :=
  if c = '\x22' then ['\\', '\x22']
  else if c = '\\' then ['\\', '\\']
  else if c = '\x08' then ['\\', 'b']
  else if c = '\x0c' then ['\\', 'f']
  else if c = '\n' then ['\\', 'n']
  else if c = '\r' then ['\\', 'r']
  else if c = '\t' then ['\\', 't']
  else if c.toNat < 0x20 then
    ['\\', 'u', '0', '0', Nat.digitChar (c.toNat / 16), Nat.digitChar (c.toNat % 16)]
  else [c]

def writeString (text : String) : List Char :=
  '\x22' :: text.toList.flatMap escapeChar ++ ['\x22']

end Trampoline.Json
