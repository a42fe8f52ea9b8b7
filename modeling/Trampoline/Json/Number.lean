import Trampoline.Json.Fault

/-!
Numbers in JSON text. A number is an integer if it has neither a fraction nor an exponent and fits a
64-bit word, signed or unsigned; every other number is a fraction. Of a fraction only its size
matters here: one whose magnitude exceeds the largest double is refused.
-/
namespace Trampoline.Json

/-- A number as read: an integer with its value, or a fraction without it. -/
inductive Number where
  | integer (value : Int)
  | floating
  deriving DecidableEq

def Number.found : Number → Found
  | .integer n => .integer n
  | .floating => .floating

def digitValue (c : Char) : Nat :=
  c.toNat - '0'.toNat

def digits (s : List Char) : List Char :=
  s.takeWhile Char.isDigit

def afterDigits (s : List Char) : List Char :=
  s.dropWhile Char.isDigit

/-- Reads digits behind those already in `start`, and stops before the first one that would take the
number beyond an unsigned 64-bit word. Gives the number and how many digits went into it. -/
def leading (start : Nat) : List Char → Nat × Nat
  | [] => (start, 0)
  | c :: rest =>
    let next := 10 * start + digitValue c
    if next < UInt64.size then
      let (value, count) := leading next rest
      (value, count + 1)
    else (start, 0)

def ofDigits (s : List Char) : Nat :=
  s.foldl (fun n c => 10 * n + digitValue c) 0

/-- The double nearest to a natural number; a tie goes to the even neighbour. -/
def nearestDouble (n : Nat) : Nat :=
  if n < Nat.pow 2 53 then n
  else
    let shift := n.log2 - 52
    let kept := n >>> shift
    let lost := n % Nat.pow 2 shift
    let half := Nat.pow 2 (shift - 1)
    let up := half < lost || (lost == half && kept % 2 == 1)
    (if up then kept + 1 else kept) <<< shift

/-- The least magnitude that rounds beyond the largest double. -/
def overflowBound : Nat :=
  Nat.pow 2 1024 - Nat.pow 2 970

/-- Whether `significand · 10 ^ exponent` is too large for a double, when the product is formed from
the doubles nearest to its two factors. -/
def isTooLarge (significand : Nat) (exponent : Int) : Bool :=
  match exponent with
  | .negSucc _ => false
  | .ofNat e =>
    if significand = 0 then false
    else if 308 < e then true
    else overflowBound ≤ nearestDouble significand * nearestDouble (Nat.pow 10 e)

/-- The parts of a number's text: its digits before and after the point, and its exponent. -/
structure Decimal where
  whole : List Char
  fraction : List Char
  exponent : Int

/-- Whether a number is too large for a double. Digits that a 64-bit word cannot take up count by
their place only. -/
def Decimal.isTooLarge (d : Decimal) : Bool :=
  let (start, used) := leading 0 d.whole
  let (significand, places) := leading start d.fraction
  Json.isTooLarge significand ((d.whole.length - used : Nat) - (places : Int) + d.exponent)

/-- Reads the exponent of a number, behind its mark. -/
def readExponent (s : List Char) : Except Fault (Int × List Char) :=
  let (negative, s) := match s with
    | '+' :: rest => (false, rest)
    | '-' :: rest => (true, rest)
    | s => (false, s)
  match s with
  | [] => .error .cutShort
  | c :: rest =>
    if c.isDigit then
      let n : Int := ofDigits (digits (c :: rest))
      .ok (if negative then -n else n, afterDigits rest)
    else .error .malformed

/-- Reads a fraction from its exponent on, if it has one. -/
def readScale (whole fraction s : List Char) : Except Fault (Number × List Char) := do
  let (exponent, rest) ← match s with
    | 'e' :: rest => readExponent rest
    | 'E' :: rest => readExponent rest
    | s => .ok (0, s)
  if Decimal.isTooLarge ⟨whole, fraction, exponent⟩ then .error .malformed
  else .ok (.floating, rest)

/-- The number that digits without a fraction or an exponent stand for: an integer, unless it fits no
64-bit word; the negative zero is a fraction. -/
def wholeNumber (negative : Bool) (whole : List Char) : Except Fault Number :=
  let n := ofDigits whole
  if negative then
    if 0 < n ∧ n ≤ Nat.pow 2 63 then .ok (.integer (-n))
    else if Decimal.isTooLarge ⟨whole, [], 0⟩ then .error .malformed
    else .ok .floating
  else if n < UInt64.size then .ok (.integer n)
  else if Decimal.isTooLarge ⟨whole, [], 0⟩ then .error .malformed
  else .ok .floating

def readFraction (negative : Bool) (whole s : List Char) : Except Fault (Number × List Char) :=
  match s with
  | '.' :: rest =>
    match rest with
    | [] => .error .cutShort
    | c :: _ =>
      if c.isDigit then readScale whole (digits rest) (afterDigits rest) else .error .malformed
  | 'e' :: _ => readScale whole [] s
  | 'E' :: _ => readScale whole [] s
  | s => do .ok (← wholeNumber negative whole, s)

/-- Reads a number behind its sign. A zero in front of another digit is refused. -/
def readMagnitude (negative : Bool) (s : List Char) : Except Fault (Number × List Char) :=
  match s with
  | [] => .error .cutShort
  | c :: rest =>
    if c = '0' then
      match rest with
      | [] => readFraction negative ['0'] []
      | d :: _ => if d.isDigit then .error .malformed else readFraction negative ['0'] rest
    else if c.isDigit then readFraction negative (digits s) (afterDigits s)
    else .error .malformed

def readNumber (s : List Char) : Except Fault (Number × List Char) :=
  match s with
  | '-' :: rest => readMagnitude true rest
  | s => readMagnitude false s

end Trampoline.Json
