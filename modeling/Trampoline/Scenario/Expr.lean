import Trampoline.Scenario.Op

/-!
Expressions of scenarios, which compute values from variables, and the instructions whose parameters
are given by expressions. Evaluation always succeeds: what has no sensible value is the unit.
-/
namespace Trampoline.Scenario

/-- The variables of a scenario with their values, each variable once. -/
abbrev Env := List (String × Value)

namespace Env

/-- The value of a variable; the unit if it has none. -/
def get (env : Env) (name : String) : Value :=
  (env.lookup name).getD .unit

/-- Gives a variable a value, in place of the one it had. -/
def set (env : Env) (name : String) (value : Value) : Env :=
  match env with
  | [] => [(name, value)]
  | (n, v) :: rest => if n = name then (n, value) :: rest else (n, v) :: set rest name value

/-- Gives a variable a value, if a variable is named. -/
def bind (env : Env) (name : Option String) (value : Value) : Env :=
  match name with
  | some name => env.set name value
  | none => env

end Env

/-- An expression. -/
inductive Expr where
  | literal (value : Value)
  | ref (name : String)
  | add (a b : Expr)
  | less (a b : Expr)
  | equal (a b : Expr)
  | negate (a : Expr)
  /-- The plain texts of all parts, one after the other. -/
  | concat (parts : List Expr)
  | list (items : List Expr)
  /-- A list with one more item. -/
  | push (init last : Expr)
  deriving Inhabited

namespace Expr

mutual

/-- The value of an expression. Sums wrap around, and what is no integer counts as zero in them. -/
def eval (env : Env) : Expr → Value
  | literal value => value
  | ref name => env.get name
  | add a b => .int ((a.eval env).toInt64 + (b.eval env).toInt64)
  | less a b => .bool ((a.eval env).toInt64 < (b.eval env).toInt64)
  | equal a b => .bool ((a.eval env).same (b.eval env))
  | negate a => .bool (!(a.eval env).holds)
  | concat parts => .text (String.join ((evalAll env parts).map Value.plain))
  | list items => .list (evalAll env items)
  | push init last => .list ((init.eval env).items ++ [last.eval env])

def evalAll (env : Env) : List Expr → List Value
  | [] => []
  | e :: rest => e.eval env :: evalAll env rest

end

end Expr

/-- An instruction whose parameters are given by expressions. -/
inductive OpExpr where
  | get (key : Expr)
  | put (key value : Expr)
  | emit (text : Expr)
  | tick
  | add (a b : Expr)
  | batch (items label : Expr)

/-- The text that a value stands for where one may be absent. -/
def Value.label : Value → Option String
  | .unit => none
  | v => some v.plain

/-- The instruction that results from the values of the expressions. -/
def OpExpr.eval (env : Env) : OpExpr → Op
  | get key => .get (key.eval env).plain
  | put key value => .put (key.eval env).plain (value.eval env).toInt64
  | emit text => .emit (text.eval env).plain
  | tick => .tick
  | add a b => .add (a.eval env).toInt64 (b.eval env).toInt64
  | batch items label =>
    .batch ((items.eval env).items.map Value.toInt64) (label.eval env).label

end Trampoline.Scenario
