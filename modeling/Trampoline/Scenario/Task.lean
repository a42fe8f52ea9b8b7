import Trampoline.Program
import Trampoline.Scenario.Expr

/-!
Descriptions of scenarios, which are lists of statements. A task is a list of statements in the middle
of its execution. It is polled: it then goes on until it is done or has to wait, for a request, for
the branches it has started, or for a number of further polls.

Requests can be kept under a name. All branches of a description share its variables and its named
requests, and a shelf of named requests is shared by all descriptions.
-/
namespace Trampoline.Scenario

/-- A statement. Where a name is absent the result of the statement is not kept. -/
inductive Stmt where
  /-- Has an instruction carried out. -/
  | perform (op : OpExpr) (result : Option String)
  /-- Makes a request and keeps it under a name, without polling it. -/
  | make (name : String) (op : OpExpr)
  /-- Waits for a named request. -/
  | await (name : String) (result : Option String)
  /-- Polls a named request once and tells what came of it. -/
  | poll (name : String) (result : Option String)
  /-- Drops a named request. -/
  | drop (name : String)
  /-- Moves a named request to the shelf. -/
  | stash (name : String)
  /-- Moves a named request back from the shelf. -/
  | unstash (name : String)
  /-- Waits for a number of polls without any request. -/
  | pause (polls : Expr)
  | assign (name : Option String) (value : Expr)
  | branch (condition : Expr) (yes no : List Stmt)
  | loop (condition : Expr) (body : List Stmt)
  | fail (failure : Failure)
  /-- Ends the branch it stands in, or else the description. -/
  | give (value : Expr)
  /-- Goes on after a failure of its body. -/
  | attempt (body : List Stmt) (result : Option String)
  /-- Waits for all of its branches. -/
  | all (branches : List (List Stmt)) (result : Option String)
  /-- Waits for the first of its branches that is done. -/
  | first (branches : List (List Stmt)) (result : Option String)
  /-- Does nothing. -/
  | skip
  deriving Inhabited

/-- What a task still has to do after the statement it is in. -/
inductive Frame where
  /-- The statements that follow. -/
  | block (rest : List Stmt)
  /-- A loop whose body was left; its condition is due. -/
  | loop (condition : Expr) (body : List Stmt)
  /-- The end of a body after whose failure the task goes on. -/
  | attempt (result : Option String)

mutual

/-- A list of statements in the middle of its execution. -/
inductive Task where
  | mk (wait : Wait) (frames : List Frame)

/-- What a task waits for. -/
inductive Wait where
  | nothing
  /-- A request of its own. -/
  | request (r : Nat) (result : Option String)
  /-- The request that has this name at the time. -/
  | named (name : String) (result : Option String)
  | pause (polls : Nat)
  | all (branches : List Branch) (result : Option String)
  | first (branches : List Task) (result : Option String)

/-- One of several branches, of which all are waited for. -/
inductive Branch where
  | running (task : Task)
  | finished (value : Value)

end

def Task.ofBody (body : List Stmt) : Task :=
  .mk .nothing [.block body]

mutual

def Task.owned : Task → List Nat
  | .mk wait _ => wait.owned

/-- The requests behind what a task waits for. -/
def Wait.owned : Wait → List Nat
  | .nothing => []
  | .request r _ => [r]
  | .named _ _ => []
  | .pause _ => []
  | .all branches _ => Branch.allOwned branches
  | .first tasks _ => Task.allOwned tasks

def Branch.owned : Branch → List Nat
  | .running task => task.owned
  | .finished _ => []

def Branch.allOwned : List Branch → List Nat
  | [] => []
  | b :: rest => b.owned ++ Branch.allOwned rest

def Task.allOwned : List Task → List Nat
  | [] => []
  | t :: rest => t.owned ++ Task.allOwned rest

end

/-- Named requests, each name once. -/
abbrev Shelf := List (String × Nat)

namespace Shelf

/-- Puts a request under a name. Also gives the request that it replaces. -/
def put (shelf : Shelf) (name : String) (r : Nat) : Option Nat × Shelf :=
  (shelf.lookup name, (name, r) :: shelf.filter fun entry => entry.1 != name)

def take (shelf : Shelf) (name : String) : Option Nat × Shelf :=
  (shelf.lookup name, shelf.filter fun entry => entry.1 != name)

def requests (shelf : Shelf) : List Nat :=
  shelf.map (·.2)

end Shelf

/-- What the branches of a description share: its variables and its named requests. -/
structure Scope where
  env : Env
  table : Shelf

/-- Gives a variable a value, if one is named. -/
def Scope.bind (scope : Scope) (name : Option String) (value : Value) : Scope :=
  { scope with env := scope.env.bind name value }

/-- What a task has come to when it was polled. -/
inductive TaskProgress where
  | suspended (task : Task)
  | finished (value : Value)
  | failed (failure : Failure)

abbrev Acting (α : Type) := Script Op Value Shelf α

/-- The failure of a statement that names a request which does not exist. -/
def missingRequest (name : String) : Failure :=
  ⟨"no request " ++ name, []⟩

/-- Drops a request, if there is one. -/
def dropOption : Option Nat → Acting Unit
  | none => .done ()
  | some r => .drop r

def stash (scope : Scope) (name : String) : Acting Scope :=
  match scope.table.take name with
  | (none, _) => .done scope
  | (some r, table) => do
    let (replaced, shelf) := (← Script.look).put name r
    Script.share shelf
    dropOption replaced
    return { scope with table := table }

def unstash (scope : Scope) (name : String) : Acting Scope := do
  match (← Script.look).take name with
  | (none, _) => return scope
  | (some r, shelf) =>
    Script.share shelf
    let (replaced, table) := scope.table.put name r
    dropOption replaced
    return { scope with table := table }

/-- Makes a request under a name, and drops the one that it replaces. -/
def make (scope : Scope) (name : String) (op : Op) : Acting Scope := do
  let r ← Script.request op
  let (replaced, table) := scope.table.put name r
  dropOption replaced
  return { scope with table := table }

def pollReport : Option (Except CellError Value) → Value
  | none => .text "pending"
  | some (.ok value) => .list [.text "ready", value]
  | some (.error e) => .list [.text "error", .text e.message]

def pollNamed (scope : Scope) (name : String) (result : Option String) : Acting Scope :=
  match scope.table.lookup name with
  | none =>
    .done (scope.bind result (.list [.text "error", .text (missingRequest name).message]))
  | some r => do
    let answer ← Script.poll r
    return scope.bind result (pollReport answer)

/-- What a task is to do next: go on with other frames or another wait, or stop. -/
inductive Course where
  | go (task : Task)
  | stop (progress : TaskProgress)

/-- Leaves the frames of a task after a failure, up to the body after whose failure it goes on. -/
def unwind (failure : Failure) (scope : Scope) : List Frame → Course × Scope
  | [] => (.stop (.failed failure), scope)
  | .attempt result :: frames =>
    (.go (.mk .nothing frames), scope.bind result (.text failure.message))
  | .block _ :: frames => unwind failure scope frames
  | .loop _ _ :: frames => unwind failure scope frames

/-- Polls the branches of which all are waited for, up to the first that fails. Gives the branches as
they are then, and the failure. -/
def pollAll (poll : Task → Scope → Acting (TaskProgress × Scope)) :
    List Branch → Scope → Acting (List Branch × Option Failure × Scope)
  | [], scope => .done ([], none, scope)
  | .finished value :: rest, scope => do
    let (branches, failure, scope) ← pollAll poll rest scope
    return (.finished value :: branches, failure, scope)
  | .running task :: rest, scope => do
    let (progress, scope) ← poll task scope
    match progress with
    | .failed failure => return (rest, some failure, scope)
    | .finished value =>
      let (branches, failure, scope) ← pollAll poll rest scope
      return (.finished value :: branches, failure, scope)
    | .suspended task =>
      let (branches, failure, scope) ← pollAll poll rest scope
      return (.running task :: branches, failure, scope)

/-- Polls tasks up to the first that is done. Gives the tasks that are left, and the result of that
one with its place among the branches; `index` is the place of the first of these tasks. -/
def pollFirst (poll : Task → Scope → Acting (TaskProgress × Scope)) (index : Nat) :
    List Task → Scope → Acting (List Task × Option (Nat × Except Failure Value) × Scope)
  | [], scope => .done ([], none, scope)
  | task :: rest, scope => do
    let (progress, scope) ← poll task scope
    match progress with
    | .failed failure => return (rest, some (index, .error failure), scope)
    | .finished value => return (rest, some (index, .ok value), scope)
    | .suspended task =>
      let (tasks, winner, scope) ← pollFirst poll (index + 1) rest scope
      return (task :: tasks, winner, scope)

/-- The values of branches, if all of them are done. -/
def finishedValues : List Branch → Option (List Value)
  | [] => some []
  | .finished value :: rest => (finishedValues rest).map (value :: ·)
  | .running _ :: _ => none

def Value.polls (value : Value) : Nat :=
  value.toInt64.toInt.toNat

/-- Begins a statement; `frames` are what follows it. -/
def Stmt.begin (scope : Scope) (frames : List Frame) : Stmt → Acting (Course × Scope)
  | perform op result => do
    let r ← Script.request (op.eval scope.env)
    return (.go (.mk (.request r result) frames), scope)
  | make name op => do
    let scope ← Scenario.make scope name (op.eval scope.env)
    return (.go (.mk .nothing frames), scope)
  | await name result => .done (.go (.mk (.named name result) frames), scope)
  | poll name result => do
    let scope ← pollNamed scope name result
    return (.go (.mk .nothing frames), scope)
  | drop name => do
    let (r, table) := scope.table.take name
    dropOption r
    return (.go (.mk .nothing frames), { scope with table := table })
  | stash name => do
    let scope ← Scenario.stash scope name
    return (.go (.mk .nothing frames), scope)
  | unstash name => do
    let scope ← Scenario.unstash scope name
    return (.go (.mk .nothing frames), scope)
  | pause polls => .done (.go (.mk (.pause (polls.eval scope.env).polls) frames), scope)
  | assign name value =>
    .done (.go (.mk .nothing frames), scope.bind name (value.eval scope.env))
  | branch condition yes no =>
    let body := if (condition.eval scope.env).holds then yes else no
    .done (.go (.mk .nothing (.block body :: frames)), scope)
  | loop condition body => .done (.go (.mk .nothing (.loop condition body :: frames)), scope)
  | fail failure => .done (unwind failure scope frames)
  | give value => .done (.stop (.finished (value.eval scope.env)), scope)
  | attempt body result =>
    .done (.go (.mk .nothing (.block body :: .attempt result :: frames)), scope)
  | all branches result =>
    let tasks := branches.map fun body => Branch.running (.ofBody body)
    .done (.go (.mk (.all tasks result) frames), scope)
  | first branches result =>
    .done (.go (.mk (.first (branches.map Task.ofBody) result) frames), scope)
  | skip => .done (.go (.mk .nothing frames), scope)

/-- Goes on with the frames of a task that waits for nothing. -/
def nextFrame (scope : Scope) : List Frame → Acting (Course × Scope)
  | [] => .done (.stop (.finished .unit), scope)
  | .block [] :: frames => .done (.go (.mk .nothing frames), scope)
  | .block (s :: rest) :: frames => s.begin scope (.block rest :: frames)
  | .loop condition body :: frames =>
    if (condition.eval scope.env).holds then
      .done (.go (.mk .nothing (.block body :: .loop condition body :: frames)), scope)
    else .done (.go (.mk .nothing frames), scope)
  | .attempt result :: frames => .done (.go (.mk .nothing frames), scope.bind result .unit)

/-- Goes on after a wait: with its result, or as after a failure. -/
def afterWait (scope : Scope) (frames : List Frame) (result : Option String)
    (outcome : Except Failure Value) : Course × Scope :=
  match outcome with
  | .ok value => (.go (.mk .nothing frames), scope.bind result value)
  | .error failure => unwind failure scope frames

/-- What a task does next, where `poll` polls the branches it waits for. -/
def Task.advance (poll : Task → Scope → Acting (TaskProgress × Scope)) (task : Task)
    (scope : Scope) : Acting (Course × Scope) :=
  match task with
  | .mk .nothing frames => nextFrame scope frames
  | .mk (.request r result) frames => do
    match ← Script.poll r with
    | none => return (.stop (.suspended task), scope)
    | some answer =>
      Script.drop r
      return afterWait scope frames result (answer.mapError Failure.ofCell)
  | .mk (.named name result) frames =>
    match scope.table.lookup name with
    | none => .done (unwind (missingRequest name) scope frames)
    | some r => do
      match ← Script.poll r with
      | none => return (.stop (.suspended task), scope)
      | some answer =>
        return afterWait scope frames result (answer.mapError Failure.ofCell)
  | .mk (.pause polls) frames =>
    match polls with
    | 0 => .done (.go (.mk .nothing frames), scope)
    | n + 1 => .done (.stop (.suspended (.mk (.pause n) frames)), scope)
  | .mk (.all branches result) frames => do
    let (branches, failure, scope) ← pollAll poll branches scope
    match failure with
    | some failure =>
      Script.dropAll (Branch.allOwned branches)
      return unwind failure scope frames
    | none =>
      match finishedValues branches with
      | some values => return afterWait scope frames result (.ok (.list values))
      | none => return (.stop (.suspended (.mk (.all branches result) frames)), scope)
  | .mk (.first tasks result) frames => do
    let (tasks, winner, scope) ← pollFirst poll 0 tasks scope
    match winner with
    | some (index, outcome) =>
      Script.dropAll (Task.allOwned tasks)
      return afterWait scope frames result
        (outcome.map fun value => .list [.int (Int64.ofNat index), value])
    | none => return (.stop (.suspended (.mk (.first tasks result) frames)), scope)

/-- Polls a task until it is done or has to wait. The fuel bounds how much it may do; a task that runs
out of it is left as if it had to wait. -/
def Task.poll : (fuel : Nat) → Task → Scope → Acting (TaskProgress × Scope)
  | 0, task, scope => .done (.suspended task, scope)
  | fuel + 1, task, scope =>
    (task.advance (Task.poll fuel) scope).bind fun (course, scope) =>
      match course with
      | .go task => Task.poll fuel task scope
      | .stop progress => .done (progress, scope)

/-- More than any task can do in one poll. -/
def ample : Nat :=
  Nat.pow 10 18

/-- A description of a scenario: its task, and what its branches share. -/
structure Description where
  task : Task
  scope : Scope

namespace Description

def start (env : Env) (body : List Stmt) : Description :=
  ⟨.ofBody body, ⟨env, []⟩⟩

/-- The requests of a description: those of its task, and those that have names. -/
def owned (d : Description) : List Nat :=
  d.task.owned ++ d.scope.table.requests

/-- Resumes a description. One that is done drops the requests that still have names. -/
def resume (d : Description) : Acting (Progress Value Description) := do
  let (progress, scope) ← d.task.poll ample d.scope
  match progress with
  | .suspended task => return .suspended ⟨task, scope⟩
  | .finished value =>
    Script.dropAll scope.table.requests
    return .finished value
  | .failed failure =>
    Script.dropAll scope.table.requests
    return .failed failure

end Description

end Trampoline.Scenario
