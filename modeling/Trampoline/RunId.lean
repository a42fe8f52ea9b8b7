import Trampoline.Json.Format

/-!
The identity of a run: a universally unique identifier of 128 bits. It is written as 32 digits in base
sixteen, in groups of 8, 4, 4, 4 and 12 with hyphens between them. It may be read without the hyphens,
in braces, or as a name in the space of such identifiers, all in either case of letters.
-/
namespace Trampoline

/-- The identity of a run. -/
structure RunId where
  bits : BitVec 128
  deriving DecidableEq

namespace RunId

/-- The bits that tell how an identifier was made: the version, and the variant of the layout. -/
def fixedBits : BitVec 128 :=
  (0xf#128 <<< 76) ||| (0x3#128 <<< 62)

/-- The identifier made from random bits. It is of version 4, and of the usual variant. -/
def ofRandom (bits : BitVec 128) : RunId :=
  ⟨(bits &&& ~~~fixedBits) ||| (0x4#128 <<< 76) ||| (0x2#128 <<< 62)⟩

/-- The number that digits in base sixteen stand for. -/
def hexValue : List Char → Option Nat
  | digits => digits.foldlM (fun n c => (Json.hexValue c).map (16 * n + ·)) 0

/-- The digits of an identifier written with hyphens, if the hyphens are in their places. -/
def ungroup (s : List Char) : Option (List Char) :=
  let groups := [(0, 8), (9, 4), (14, 4), (19, 4), (24, 12)]
  if s.length = 36 ∧ [8, 13, 18, 23].all fun i => s[i]? == some '-' then
    some (groups.flatMap fun (start, size) => (s.drop start).take size)
  else none

/-- The text with which the name of an identifier begins, in either case of letters. -/
def urnStart : List Char :=
  "urn:uuid:".toList

/-- The digits in any of the written forms of an identifier. -/
def digitsOf (s : List Char) : Option (List Char) :=
  if s.length = 32 then some s
  else if s.length = 36 then ungroup s
  else if s.length = 38 ∧ s.head? = some '\x7b' ∧ s.getLast? = some '\x7d' then
    ungroup (s.drop 1).dropLast
  else if s.length = 45 ∧ (s.take 9).map Char.toLower = urnStart then ungroup (s.drop 9)
  else none

def ofText? (text : String) : Option RunId := do
  let digits ← digitsOf text.toList
  return ⟨BitVec.ofNat 128 (← hexValue digits)⟩

/-- The digit of an identifier at the given place, counted from the end. -/
def digitAt (id : RunId) (place : Nat) : Char :=
  Nat.digitChar (id.bits.toNat / Nat.pow 16 place % 16)

def digits (id : RunId) : List Char :=
  (List.range 32).map fun i => id.digitAt (31 - i)

/-- The written form of an identifier, with hyphens and in lower case. -/
def text (id : RunId) : String :=
  let d := id.digits
  String.ofList <| ['-'].intercalate
    [d.take 8, (d.drop 8).take 4, (d.drop 12).take 4, (d.drop 16).take 4, d.drop 20]

/-- Reads an identifier from a JSON document, which holds it as a text. -/
def ofJson? (document : String) : Option RunId :=
  match Json.Format.text.ofText document with
  | .error _ => none
  | .ok text => ofText? text

def json (id : RunId) : String :=
  (Json.Tree.text id.text).compact

end RunId

end Trampoline
