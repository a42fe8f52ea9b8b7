import Trampoline.Cell
import Trampoline.Text.Quoted

/-!
How values are shown to a reader. A value is first laid out as a tree of names, fields and items,
and the tree is then printed either on one line or with one item to a line.
-/
namespace Trampoline

/-- The layout of a value. -/
inductive Rendering where
  /-- Text that is shown as it stands: a number, or the name of something without parts. -/
  | bare (text : String)
  /-- Text that is shown between quotes. -/
  | quoted (text : String)
  /-- A name with unnamed parts; `whole` is false where further parts are kept from the reader. -/
  | tuple (name : String) (parts : List Rendering) (whole : Bool)
  /-- A name with named parts; without parts only the name is shown. -/
  | record (name : String) (fields : List (String × Rendering))
  /-- A sequence of parts. -/
  | list (items : List Rendering)

namespace Rendering

def option (part : Option Rendering) : Rendering :=
  match part with
  | none => bare "None"
  | some r => tuple "Some" [r] true

mutual

def compactChars : Rendering → List Char
  | bare text => text.toList
  | quoted text => Text.quoted text
  | tuple name parts whole =>
    name.toList ++ '(' :: (compactItems parts ++ (if whole then [')'] else ", ..)".toList))
  | record name [] => name.toList
  | record name (field :: fields) =>
    name.toList ++ " \x7b ".toList ++ (compactFields (field :: fields) ++ " \x7d".toList)
  | list items => '[' :: (compactItems items ++ [']'])

/-- Prints parts one after the other, with commas between them. -/
def compactItems : List Rendering → List Char
  | [] => []
  | [r] => compactChars r
  | r :: rest => compactChars r ++ (", ".toList ++ compactItems rest)

/-- Prints named parts one after the other, with commas between them. -/
def compactFields : List (String × Rendering) → List Char
  | [] => []
  | [(name, r)] => name.toList ++ ": ".toList ++ compactChars r
  | (name, r) :: rest =>
    name.toList ++ ": ".toList ++ (compactChars r ++ (", ".toList ++ compactFields rest))

end

/-- A line break, and the indentation of the line after it. -/
def newline (depth : Nat) : List Char :=
  '\n' :: List.replicate (4 * depth) ' '

mutual

/-- Prints a layout that starts at the given depth of nesting, one part to a line. -/
def prettyChars (depth : Nat) : Rendering → List Char
  | bare text => text.toList
  | quoted text => Text.quoted text
  | tuple name parts whole =>
    name.toList ++ '(' :: (prettyItems (depth + 1) parts ++
      ((if whole then [] else newline (depth + 1) ++ "..".toList) ++ newline depth ++ [')']))
  | record name [] => name.toList
  | record name (field :: fields) =>
    name.toList ++ " \x7b".toList ++
      (prettyFields (depth + 1) (field :: fields) ++ newline depth ++ ['\x7d'])
  | list [] => "[]".toList
  | list (r :: rest) => '[' :: (prettyItems (depth + 1) (r :: rest) ++ newline depth ++ [']'])

/-- Prints each part on a line of its own, with a comma after it. -/
def prettyItems (depth : Nat) : List Rendering → List Char
  | [] => []
  | r :: rest => newline depth ++ prettyChars depth r ++ ',' :: prettyItems depth rest

/-- Prints each named part on a line of its own, with a comma after it. -/
def prettyFields (depth : Nat) : List (String × Rendering) → List Char
  | [] => []
  | (name, r) :: rest =>
    newline depth ++ name.toList ++ ": ".toList ++ prettyChars depth r ++
      ',' :: prettyFields depth rest

end

def compact (r : Rendering) : String :=
  String.ofList r.compactChars

def pretty (r : Rendering) : String :=
  String.ofList (r.prettyChars 0)

end Rendering

/-- The layout of a cell, which tells its condition only. -/
def Cell.rendering {V : Type} (cell : Cell V) : Rendering :=
  .tuple "ResultCell" [.quoted cell.condition] true

end Trampoline
