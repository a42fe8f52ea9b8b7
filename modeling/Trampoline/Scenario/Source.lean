import Trampoline.Scenario.Task

/-!
Programs of scenarios. A source says how a program is written; together with the variables it starts
from it is a program, whose form is found by deciding its conditions and entering its definitions.
-/
namespace Trampoline.Scenario

/-- How a program is written. -/
inductive Source where
  | pure (value : Expr)
  | delay (body : Source)
  | tryDelay (body : Source)
  | tryFail (failure : Failure)
  | fail (failure : Failure)
  | perform (op : OpExpr) (result : Option String) (next : Source)
  | branch (condition : Expr) (yes no : Source)
  | call (definition : String) (arguments : List Expr)
  | describe (body : List Stmt)
  deriving Inhabited

/-- A source that can be called, with its parameters. -/
structure Definition where
  name : String
  parameters : List String
  body : Source

/-- A source with the variables it starts from. -/
structure Closure where
  env : Env
  source : Source

/-- Gives each parameter in turn its argument, or the unit where the arguments have run out. -/
def Env.pass (env : Env) : (parameters : List String) → (arguments : List Value) → Env
  | [], _ => env
  | name :: names, [] => pass (env.set name .unit) names []
  | name :: names, value :: values => pass (env.set name value) names values

def Definition.enter (d : Definition) (arguments : List Value) : Env :=
  Env.pass [] d.parameters arguments

/-- The form of a program. The fuel bounds the number of decisions and calls on the way; a program that
runs out of it is over. -/
def Closure.form (definitions : List Definition) :
    (fuel : Nat) → Closure → Form Op Value Value Closure Description
  | 0, _ => .pure .unit
  | fuel + 1, ⟨env, source⟩ =>
    match source with
    | .pure value => .pure (value.eval env)
    | .delay body => .delay ⟨env, body⟩
    | .tryDelay body => .tryDelay (.ok ⟨env, body⟩)
    | .tryFail failure => .tryDelay (.error failure)
    | .fail failure => .fail failure
    | .perform op result next =>
      .perform (op.eval env) fun value => ⟨env.bind result value, next⟩
    | .branch condition yes no =>
      form definitions fuel ⟨env, if (condition.eval env).holds then yes else no⟩
    | .call name arguments =>
      match definitions.find? fun d => d.name == name with
      | none => .pure .unit
      | some d => form definitions fuel ⟨d.enter (Expr.evalAll env arguments), d.body⟩
    | .describe body => .describe (.start env body)

def language (definitions : List Definition) :
    Language Op Value Shelf Value Closure Description where
  form := Closure.form definitions ample
  resume := Description.resume
  owned := Description.owned

abbrev Step := Thunk Value Closure Description

abbrev ScenarioNode := Node Op Value Step

abbrev World := Store Op Value Shelf

def Source.node (definitions : List Definition) (source : Source) (world : World) :
    ScenarioNode × World :=
  (language definitions).node ⟨[], source⟩ world

/-- How a node is shown: what comes after it is kept from the reader. -/
def showNode : ScenarioNode → Rendering
  | .result value => .tuple "Return" [value.rendering] true
  | .delay _ => .bare "Delay(..)"
  | .await issued _ => .tuple "Await" [InstructionSet.member issued.instruction] false

end Trampoline.Scenario
