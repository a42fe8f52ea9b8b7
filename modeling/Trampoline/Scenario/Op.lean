import Trampoline.InstructionSet
import Trampoline.Scenario.Value

/-!
The instructions of scenarios: a small set over a table of numbers, an output, a clock and some
arithmetic.
-/
namespace Trampoline.Scenario

/-- An instruction of a scenario. -/
inductive Op where
  /-- Asks for the number stored under a key. -/
  | get (key : String)
  /-- Stores a number under a key and asks for the one it replaces. -/
  | put (key : String) (value : Int64)
  /-- Writes a text to the output. -/
  | emit (text : String)
  /-- Advances the clock and asks for the time. -/
  | tick
  /-- Asks for a sum. -/
  | add (a b : Int64)
  /-- Asks for the running sums of numbers. -/
  | batch (items : List Int64) (label : Option String)
  deriving DecidableEq

namespace Op

def schema : Schema :=
  .declare "Ops" [
    ("Get", [("key", "String")], "Option<i64>"),
    ("Put", [("key", "String"), ("value", "i64")], "Option<i64>"),
    ("Emit", [("text", "String")], "()"),
    ("Tick", [], "i64"),
    ("Add", [("a", "i64"), ("b", "i64")], "i64"),
    ("Batch", [("items", "Vec<i64>"), ("label", "Option<String>")], "Vec<i64>")]

def name : Op → String
  | get _ => "Get"
  | put _ _ => "Put"
  | emit _ => "Emit"
  | tick => "Tick"
  | add _ _ => "Add"
  | batch _ _ => "Batch"

def number (n : Int64) : Rendering :=
  .bare (toString n.toInt)

def rendering : Op → Rendering
  | get key => .record "Get" [("key", .quoted key)]
  | put key value => .record "Put" [("key", .quoted key), ("value", number value)]
  | emit text => .record "Emit" [("text", .quoted text)]
  | tick => .record "Tick" []
  | add a b => .record "Add" [("a", number a), ("b", number b)]
  | batch items label =>
    .record "Batch" [("items", .list (items.map number)),
      ("label", .option (label.map Rendering.quoted))]

instance : InstructionSet Op where
  schema := schema
  name := name
  rendering := rendering

/-- The answer to an instruction that comes closest to a value of any kind. -/
def fit : Op → Value → Value
  | get _, .int n => .int n
  | get _, _ => .unit
  | put _ _, .int n => .int n
  | put _ _, _ => .unit
  | emit _, _ => .unit
  | tick, v => .int v.toInt64
  | add _ _, v => .int v.toInt64
  | batch _ _, v => .list (v.items.map fun item => .int item.toInt64)

end Op

end Trampoline.Scenario
