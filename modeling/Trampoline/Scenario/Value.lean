import Trampoline.Rendering

/-!
The values of scenarios: what programs compute, and what their instructions are answered with.
-/
namespace Trampoline.Scenario

/-- A value of a scenario. Integers are signed 64-bit words. -/
inductive Value where
  | unit
  | bool (value : Bool)
  | int (value : Int64)
  | text (value : String)
  | list (items : List Value)
  deriving Inhabited

namespace Value

mutual

def same : Value → Value → Bool
  | unit, unit => true
  | bool a, bool b => a == b
  | int a, int b => a == b
  | text a, text b => a == b
  | list as, list bs => sameItems as bs
  | _, _ => false

def sameItems : List Value → List Value → Bool
  | [], [] => true
  | a :: as, b :: bs => same a b && sameItems as bs
  | _, _ => false

end

mutual

/-- The plain text of a value, as it appears inside other text. -/
def plain : Value → String
  | unit => ""
  | bool true => "true"
  | bool false => "false"
  | int n => toString n.toInt
  | text s => s
  | list items => "[" ++ ",".intercalate (plainItems items) ++ "]"

def plainItems : List Value → List String
  | [] => []
  | v :: rest => plain v :: plainItems rest

end

mutual

def rendering : Value → Rendering
  | unit => .bare "Unit"
  | bool true => .tuple "Bool" [.bare "true"] true
  | bool false => .tuple "Bool" [.bare "false"] true
  | int n => .tuple "Int" [.bare (toString n.toInt)] true
  | text s => .tuple "Str" [.quoted s] true
  | list items => .tuple "List" [.list (renderings items)] true

def renderings : List Value → List Rendering
  | [] => []
  | v :: rest => rendering v :: renderings rest

end

/-- The integer in a value; zero if it holds none. -/
def toInt64 : Value → Int64
  | int n => n
  | _ => 0

/-- The items of a value; none if it is not a list. -/
def items : Value → List Value
  | list items => items
  | _ => []

/-- Whether a value lets a condition hold; only the true one does. -/
def holds : Value → Bool
  | bool b => b
  | _ => false

/-- The integer as a value, if there is one. -/
def ofInt? : Option Int64 → Value
  | none => unit
  | some n => int n

end Value

end Trampoline.Scenario
