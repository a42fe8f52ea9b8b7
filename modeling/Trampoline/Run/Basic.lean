import Trampoline.Handler.Basic
import Trampoline.Program
import Trampoline.Run.Config

/-!
Running a program. The run looks at one node after the other: it forces the steps of the program
itself and hands instructions to the handler, one at a time. Only the present node and the thunk
behind it are kept, so a run of any length needs no more room than a short one.

A run is a state machine whose `step` does at most one thing and then says whether the run goes on or
has to be polled again later, as it has when the handler is not ready or the run pauses.
-/
namespace Trampoline

/-- Where a run stands. -/
inductive Stage (I T N : Type) where
  /-- The next step looks at this node. -/
  | reducing (node : Node I T N)
  /-- The handler was polled so many times for this instruction and is not done with it. -/
  | dispatching (issued : Issued I) (next : N) (polls : Nat)
  /-- The run is over. -/
  | ended (outcome : Except RunError T)

/-- A run between two steps: where it stands, what it has done, and the state of its handler. -/
structure Run (I T N H : Type) where
  stage : Stage I T N
  stats : RunStats
  handler : H

/-- What one step leaves behind: the run, the store, what was reported, and whether the run now waits
to be polled again. -/
structure Stepped (I V X T N H : Type) where
  run : Run I T N H
  store : Store I V X
  events : List Event
  suspended : Bool

/-- How runs are carried out: the settings, the unfolding of programs, and the handler. -/
structure Executor (I V X T N H : Type) where
  config : RunConfig
  unfolding : Unfolding I V X T N
  handler : Handler I V H

def Run.outcome? {I T N H : Type} (run : Run I T N H) : Option (Except RunError T) :=
  match run.stage with
  | .ended outcome => some outcome
  | .reducing _ => none
  | .dispatching _ _ _ => none

def Run.start {I T N H : Type} (node : Node I T N) (handler : H) : Run I T N H :=
  ⟨.reducing node, .zero, handler⟩

/-- Whether so many steps are more than the settings grant. -/
def RunConfig.exceeded? (config : RunConfig) (steps : Nat) : Option Nat :=
  match config.stepLimit with
  | some limit => if limit < steps then some limit else none
  | none => none

def RunConfig.pausesAfter (config : RunConfig) (steps : Nat) : Bool :=
  match config.yieldInterval with
  | some interval => 0 < interval && steps % interval == 0
  | none => false

namespace Executor

variable {I V X T N H : Type}

/-- Goes on from what forcing a thunk gave: with the next node, after a pause if one is due, or to the
end of the run. `report` is what is reported of a node that could not be built. -/
def proceed (executor : Executor I V X T N H) (report : BuildError → Event)
    (stats : RunStats) (handler : H) (before : List Event)
    (built : Except BuildError (Node I T N) × Store I V X) : Stepped I V X T N H :=
  match built with
  | (.ok node, store) =>
    ⟨⟨.reducing node, stats, handler⟩, store, before, executor.config.pausesAfter stats.steps⟩
  | (.error e, store) =>
    ⟨⟨.ended (.error (.build e)), stats, handler⟩, store, before ++ [report e], false⟩

/-- Polls the handler for an instruction, and goes on once the answer is in its cell. -/
def pollHandler [InstructionSet I] (executor : Executor I V X T N H) (issued : Issued I) (next : N)
    (polls : Nat) (stats : RunStats) (handler : H) (store : Store I V X) (before : List Event) :
    Stepped I V X T N H :=
  let name := InstructionSet.name issued.instruction
  let cell := store.cellAt issued.cell
  let (dispatched, handler, cell, events) :=
    executor.handler.dispatch issued.instruction polls handler cell
  let store := store.putCell issued.cell cell
  match dispatched with
  | .pending =>
    ⟨⟨.dispatching issued next (polls + 1), stats, handler⟩, store, before ++ events, true⟩
  | .failed e =>
    ⟨⟨.ended (.error e), stats, handler⟩, executor.unfolding.discard next store,
      before ++ events ++ [.dispatchFailed name e], false⟩
  | .stored =>
    executor.proceed (.continuationFailed name) { stats with dispatches := stats.dispatches + 1 }
      handler (before ++ events) (executor.unfolding.force next store)

def giveUp (executor : Executor I V X T N H) (limit : Nat) (next : N) (stats : RunStats)
    (handler : H) (store : Store I V X) (before : List Event) : Stepped I V X T N H :=
  ⟨⟨.ended (.error (.stepLimitExceeded limit)), stats, handler⟩,
    executor.unfolding.discard next store, before ++ [.limitExceeded limit], false⟩

/-- Looks at a node. A value ends the run and is never charged to the limit; any other node is reduced
unless the limit forbids it. -/
def reduce [InstructionSet I] (executor : Executor I V X T N H) (node : Node I T N)
    (stats : RunStats) (handler : H) (store : Store I V X) : Stepped I V X T N H :=
  let stats := { stats with steps := stats.steps + 1 }
  let before := if executor.config.debug then [Event.reducing stats.steps node.kind] else []
  match node with
  | .result value =>
    ⟨⟨.ended (.ok value), stats, handler⟩, store,
      before ++ [.returned stats.steps stats.dispatches], false⟩
  | .delay next =>
    match executor.config.exceeded? stats.steps with
    | some limit => executor.giveUp limit next stats handler store before
    | none =>
      executor.proceed .stepFailed { stats with delays := stats.delays + 1 } handler before
        (executor.unfolding.force next store)
  | .await issued next =>
    match executor.config.exceeded? stats.steps with
    | some limit => executor.giveUp limit next stats handler store before
    | none =>
      executor.pollHandler issued next 0 stats handler store
        (before ++ [.dispatching (InstructionSet.name issued.instruction)])

/-- Does the next thing in a run. A run that is over stays as it is. -/
def step [InstructionSet I] (executor : Executor I V X T N H) (run : Run I T N H)
    (store : Store I V X) : Stepped I V X T N H :=
  match run with
  | ⟨.reducing node, stats, handler⟩ => executor.reduce node stats handler store
  | ⟨.dispatching issued next polls, stats, handler⟩ =>
    executor.pollHandler issued next polls stats handler store []
  | ⟨.ended outcome, stats, handler⟩ => ⟨⟨.ended outcome, stats, handler⟩, store, [], false⟩

/-- Abandons a run: what would have come next is thrown away. -/
def abandon (executor : Executor I V X T N H) (run : Run I T N H) (store : Store I V X) :
    Store I V X :=
  match run.stage with
  | .reducing node => executor.unfolding.discardNode node store
  | .dispatching _ next _ => executor.unfolding.discard next store
  | .ended _ => store

/-- Polls a run: steps until the run is over or has to wait. The fuel bounds the number of steps; where
it runs out the run is left as if it waited. What is reported is handed to `report`. -/
def poll {R : Type} [InstructionSet I] (executor : Executor I V X T N H) (report : R → Event → R) :
    Nat → Run I T N H → Store I V X → R → Run I T N H × Store I V X × R
  | 0, run, store, reported => (run, store, reported)
  | fuel + 1, run, store, reported =>
    let ⟨run, store, events, suspended⟩ := executor.step run store
    let reported := events.foldl report reported
    if suspended || run.outcome?.isSome then (run, store, reported)
    else executor.poll report fuel run store reported

end Executor

end Trampoline
