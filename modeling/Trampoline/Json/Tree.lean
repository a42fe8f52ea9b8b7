import Trampoline.Json.Strings

/-!
JSON values on their way out, and their two written forms: without any white space, and with one
entry to a line. The members of an object stay in the order in which they are given.
-/
namespace Trampoline.Json

/-- A JSON value to be written. Numbers are natural numbers; no others are written. -/
inductive Tree where
  | null
  | flag (value : Bool)
  | number (value : Nat)
  | text (value : String)
  | array (items : List Tree)
  | object (members : List (String × Tree))

namespace Tree

def flagChars (value : Bool) : List Char :=
  if value then "true".toList else "false".toList

def numberChars (value : Nat) : List Char :=
  Nat.toDigits 10 value

mutual

def compactChars : Tree → List Char
  | null => "null".toList
  | flag value => flagChars value
  | number value => numberChars value
  | text value => writeString value
  | array items => '[' :: (compactItems items ++ [']'])
  | object members => '\x7b' :: (compactMembers members ++ ['\x7d'])

/-- Writes items with commas between them. -/
def compactItems : List Tree → List Char
  | [] => []
  | [t] => compactChars t
  | t :: rest => compactChars t ++ ',' :: compactItems rest

/-- Writes members with commas between them. -/
def compactMembers : List (String × Tree) → List Char
  | [] => []
  | [(key, t)] => writeString key ++ ':' :: compactChars t
  | (key, t) :: rest => writeString key ++ ':' :: (compactChars t ++ ',' :: compactMembers rest)

end

/-- A line break, and the indentation of the line after it. -/
def lineBreak (depth : Nat) : List Char :=
  '\n' :: List.replicate (2 * depth) ' '

mutual

/-- Writes a value that starts at the given depth, one entry to a line. -/
def prettyChars (depth : Nat) : Tree → List Char
  | null => "null".toList
  | flag value => flagChars value
  | number value => numberChars value
  | text value => writeString value
  | array [] => "[]".toList
  | array (t :: rest) =>
    '[' :: (prettyItems (depth + 1) (t :: rest) ++ (lineBreak depth ++ [']']))
  | object [] => "\x7b\x7d".toList
  | object (m :: rest) =>
    '\x7b' :: (prettyMembers (depth + 1) (m :: rest) ++ (lineBreak depth ++ ['\x7d']))

def prettyItems (depth : Nat) : List Tree → List Char
  | [] => []
  | [t] => lineBreak depth ++ prettyChars depth t
  | t :: rest => lineBreak depth ++ (prettyChars depth t ++ ',' :: prettyItems depth rest)

def prettyMembers (depth : Nat) : List (String × Tree) → List Char
  | [] => []
  | [(key, t)] => lineBreak depth ++ (writeString key ++ ':' :: ' ' :: prettyChars depth t)
  | (key, t) :: rest =>
    lineBreak depth ++ (writeString key ++ ':' :: ' ' ::
      (prettyChars depth t ++ ',' :: prettyMembers depth rest))

end

def compact (t : Tree) : String :=
  String.ofList t.compactChars

def pretty (t : Tree) : String :=
  String.ofList (t.prettyChars 0)

end Tree

end Trampoline.Json
