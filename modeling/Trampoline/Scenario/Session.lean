import Trampoline.Handler.Observed
import Trampoline.Run.Basic
import Trampoline.Scenario.Service
import Trampoline.Scenario.Source

/-!
Sessions, in which programs of scenarios are run. Several programs can be run one after the other
against one service, or at the same time with a service each, taking turns. Whoever runs a program
polls it again and again, counts how often it had to wait, and may lose patience.
-/
namespace Trampoline.Scenario

/-- The executor of scenarios, against the service inside layers of observation. -/
abbrev ScenarioExecutor (layers : List Layer) :=
  Executor Op Value Shelf Value Step (Layered Service layers)

abbrev ScenarioRun (layers : List Layer) :=
  Run Op Value Step (Layered Service layers)

/-- How a program is run. -/
inductive Mode where
  /-- With its settings, polled by whoever runs it, who is told the counts in the end. -/
  | counted
  /-- With its settings, polled by whoever runs it. -/
  | plain
  /-- With the default settings, polled by whoever runs it. -/
  | free
  /-- With its settings, in one go. -/
  | blocking
  deriving DecidableEq

def Mode.config (mode : Mode) (config : RunConfig) : RunConfig :=
  match mode with
  | .free => .default
  | .counted => config
  | .plain => config
  | .blocking => config

/-- A program to be run. -/
structure Job where
  source : Source
  /-- The document of its settings; the default ones if there is none. -/
  config : Option String
  mode : Mode
  /-- After how many waits the run is abandoned, if it ever is. -/
  patience : Option Nat

def readConfig (document : Option String) : Except ConfigError RunConfig :=
  match document with
  | none => .ok .default
  | some text => RunConfig.ofJson text

/-- What became of a run. -/
structure Report (layers : List Layer) where
  config : RunConfig
  /-- The result of the run, unless it was abandoned. -/
  outcome : Option (Except RunError Value)
  /-- What the run has done, if that is told. -/
  stats : Option RunStats
  /-- How often the run was seen waiting. -/
  suspensions : Nat
  handler : Layered Service layers
  events : Array Event

/-- Polls a run until it is over, or until it has waited too often; then it is abandoned. -/
def watch {layers : List Layer} (executor : ScenarioExecutor layers) (patience : Option Nat) :
    (fuel : Nat) → (waits : Nat) → ScenarioRun layers → World → Array Event →
      ScenarioRun layers × World × Array Event × Nat
  | 0, waits, run, world, events => (run, world, events, waits)
  | fuel + 1, waits, run, world, events =>
    let (run, world, events) := executor.poll Array.push ample run world events
    if run.outcome?.isSome then (run, world, events, waits)
    else if patience = some (waits + 1) then
      (run, executor.abandon run world, events, waits + 1)
    else watch executor patience fuel (waits + 1) run world events

/-- Runs a job against the handler in the given state. -/
def Job.run {layers : List Layer} (definitions : List Definition)
    (handler : Handler Op Value (Layered Service layers)) (job : Job)
    (state : Layered Service layers) (world : World) :
    Except ConfigError (Report layers) × Layered Service layers × World :=
  match readConfig job.config with
  | .error e => (.error e, state, world)
  | .ok config =>
    let (node, world) := job.source.node definitions world
    let executor : ScenarioExecutor layers :=
      ⟨job.mode.config config, (language definitions).unfolding, handler⟩
    let patience := if job.mode = .blocking then none else job.patience
    let (run, world, events, waits) :=
      watch executor patience ample 0 (.start node state) world
        #[.started (InstructionSet.baseName Op)]
    let report : Report layers := {
      config := config
      outcome := run.outcome?
      stats := if job.mode = .counted then some run.stats else none
      suspensions := if job.mode = .blocking then 0 else waits
      handler := run.handler
      events := events }
    (.ok report, run.handler, world)

/-- Runs jobs one after the other against one handler. -/
def runJobs {layers : List Layer} (definitions : List Definition)
    (handler : Handler Op Value (Layered Service layers)) :
    List Job → Layered Service layers → World →
      List (Except ConfigError (Report layers)) × Layered Service layers
  | [], state, _ => ([], state)
  | job :: rest, state, world =>
    let (report, state, world) := job.run definitions handler state world
    let (reports, state) := runJobs definitions handler rest state world
    (report :: reports, state)

/-- Runs jobs one after the other against one service inside layers of observation. -/
def runSession (layers : List Layer) (definitions : List Definition)
    (disturbances : List Disturbance) (entries : List (String × Int64)) (jobs : List Job) :
    List (Except ConfigError (Report layers)) × Layered Service layers :=
  runJobs definitions ((Service.handler disturbances).layered layers) jobs
    (Layered.start (Service.fresh entries) layers) (.fresh [])

/-- A program that is run along with others, with a service of its own. -/
structure Party where
  source : Source
  config : Option String
  entries : List (String × Int64)
  disturbances : List Disturbance

/-- A run that takes turns with others; its calls are recorded. -/
structure Turn where
  executor : ScenarioExecutor [.recording]
  run : ScenarioRun [.recording]

/-- One poll of one of several runs: its number, whether it is over, and how many calls its service
has had. -/
structure Poll where
  index : Nat
  finished : Bool
  calls : Nat
  deriving DecidableEq

/-- Sets up the runs of several programs in one world. -/
def setUp (definitions : List Definition) :
    List Party → World → Except ConfigError (List Turn × World)
  | [], world => .ok ([], world)
  | party :: rest, world => do
    let config ← readConfig party.config
    let (node, world) := party.source.node definitions world
    let executor : ScenarioExecutor [.recording] :=
      ⟨config, (language definitions).unfolding,
        (Service.handler party.disturbances).layered [.recording]⟩
    let state := Layered.start (Service.fresh party.entries) [.recording]
    let (turns, world) ← setUp definitions rest world
    return (⟨executor, .start node state⟩ :: turns, world)

/-- Polls every run that is not over once, in order, from the run with the given number on. -/
def playRound (index : Nat) :
    List Turn → World → Array Poll → List Turn × World × Array Poll
  | [], world, polls => ([], world, polls)
  | turn :: rest, world, polls =>
    let (turn, world, polls) :=
      if turn.run.outcome?.isSome then (turn, world, polls)
      else
        let (run, world, _) := turn.executor.poll (fun _ _ => ()) ample turn.run world ()
        ({ turn with run := run }, world,
          polls.push ⟨index, run.outcome?.isSome, run.handler.inner.calls⟩)
    let (turns, world, polls) := playRound (index + 1) rest world polls
    (turn :: turns, world, polls)

def playRounds : (fuel : Nat) → List Turn → World → Array Poll → List Turn × Array Poll
  | 0, turns, _, polls => (turns, polls)
  | fuel + 1, turns, world, polls =>
    if turns.all fun turn => turn.run.outcome?.isSome then (turns, polls)
    else
      let (turns, world, polls) := playRound 0 turns world polls
      playRounds fuel turns world polls

/-- Runs several programs at the same time, each with its own service. Gives the polls in the order in
which they were made, and every run. -/
def interleave (definitions : List Definition) (parties : List Party) :
    Except ConfigError (List (ScenarioRun [.recording]) × Array Poll) := do
  let (turns, world) ← setUp definitions parties (.fresh [])
  let (turns, polls) := playRounds ample turns world #[]
  return (turns.map (·.run), polls)

end Trampoline.Scenario
