import Trampoline.Scenario.Session

/-!
The bench, on which cells, instructions and programs are taken apart by hand: every step of it does
one thing to the piece at hand and tells what came of it.
-/
namespace Trampoline.Scenario

/-- A step with a cell. -/
inductive CellStep where
  | set (value : Value)
  | take
  | isSet
  /-- Shows the cell, on one line or over several. -/
  | display (pretty : Bool)

/-- A step with an instruction or a program. -/
inductive BenchStep where
  | cell (step : CellStep)
  /-- Has the handler carry out the instruction at hand. -/
  | accept
  /-- Names the instruction at hand. -/
  | name
  /-- Shows the piece, on one line or over several. -/
  | display (pretty : Bool)
  /-- Looks the instruction at hand up in its schema. -/
  | signature
  /-- Tells the kind of the node at hand. -/
  | kind
  /-- Goes on to the next node, whatever the state of the cell. -/
  | next
  /-- Nothing that can be done with a piece. -/
  | unknown

/-- What a step tells. -/
inductive Finding where
  /-- There is nothing to tell. -/
  | nothing
  | done
  | taken (value : Value)
  | cellError (error : CellError)
  | runError (error : RunError)
  | buildError (error : BuildError)
  | flag (value : Bool)
  | text (value : String)
  | signature (name : String) (signature : Signature)
  | returned (value : Value)
  | node (kind : NodeKind)
  /-- The step does not apply to the piece. -/
  | inapplicable
  /-- The piece was used up by an earlier step. -/
  | consumed

def display (pretty : Bool) (r : Rendering) : Finding :=
  .text (if pretty then r.pretty else r.compact)

def CellStep.run (cell : Cell Value) : CellStep → Finding × Cell Value
  | set value =>
    match cell.store value with
    | (.ok (), cell) => (.done, cell)
    | (.error e, cell) => (.cellError e, cell)
  | take =>
    match cell.fetch with
    | (.ok value, cell) => (.taken value, cell)
    | (.error e, cell) => (.cellError e, cell)
  | isSet => (.flag cell.isSet, cell)
  | display pretty => (Scenario.display pretty cell.rendering, cell)

/-- Does steps with a cell alone, one after the other. -/
def runCell : List BenchStep → Cell Value → List Finding
  | [], _ => []
  | .cell step :: rest, cell =>
    let (finding, cell) := step.run cell
    finding :: runCell rest cell
  | _ :: rest, cell => .inapplicable :: runCell rest cell

/-- The handler on the bench, whose calls are recorded. -/
structure Bench where
  disturbances : List Disturbance
  state : Recorded Service
  world : World

namespace Bench

def fresh (disturbances : List Disturbance) (entries : List (String × Int64)) : Bench :=
  ⟨disturbances, ⟨.fresh entries, #[]⟩, .fresh []⟩

/-- Polls the handler until it is done with an instruction. -/
def accept : (fuel polls : Nat) → Issued Op → Bench → Finding × Bench
  | 0, _, _, bench => (.nothing, bench)
  | fuel + 1, polls, issued, ⟨disturbances, state, world⟩ =>
    let (dispatched, state, cell, _) :=
      (Service.handler disturbances).recorded.dispatch issued.instruction polls state
        (world.cellAt issued.cell)
    let bench : Bench := ⟨disturbances, state, world.putCell issued.cell cell⟩
    match dispatched with
    | .pending => accept fuel (polls + 1) issued bench
    | .stored => (.done, bench)
    | .failed e => (.runError e, bench)

/-- Does a step with the cell of an instruction; a value that is put in is made to fit. -/
def cellStep (issued : Issued Op) (step : CellStep) (bench : Bench) : Finding × Bench :=
  let step : CellStep := match step with
    | .set value => .set (issued.instruction.fit value)
    | step => step
  let (finding, cell) := step.run (bench.world.cellAt issued.cell)
  (finding, { bench with world := bench.world.putCell issued.cell cell })

def instructionStep (issued : Issued Op) (step : BenchStep) (bench : Bench) : Finding × Bench :=
  match step with
  | .cell step => bench.cellStep issued step
  | .accept => accept ample 0 issued bench
  | .name => (.text issued.instruction.name, bench)
  | .display pretty => (Scenario.display pretty (InstructionSet.member issued.instruction), bench)
  | .signature =>
    match InstructionSet.signature? issued.instruction with
    | some signature => (.signature issued.instruction.name signature, bench)
    | none => (.nothing, bench)
  | .kind => (.inapplicable, bench)
  | .next => (.inapplicable, bench)
  | .unknown => (.inapplicable, bench)

/-- Does steps with an instruction, one after the other. -/
def instructionSteps (issued : Issued Op) : List BenchStep → Bench → List Finding × Bench
  | [], bench => ([], bench)
  | step :: rest, bench =>
    let (finding, bench) := bench.instructionStep issued step
    let (findings, bench) := instructionSteps issued rest bench
    (finding :: findings, bench)

/-- Forces the thunk behind a node. -/
def force (definitions : List Definition) (next : Step) (bench : Bench) :
    Finding × Option ScenarioNode × Bench :=
  match (language definitions).force next bench.world with
  | (.ok node, world) => (.node node.kind, some node, { bench with world := world })
  | (.error e, world) => (.buildError e, none, { bench with world := world })

/-- Does a step with a program, of which the present node is at hand. A node is used up when the
program is over, or when the next one could not be built. -/
def programStep (definitions : List Definition) (node : ScenarioNode) (step : BenchStep)
    (bench : Bench) : Finding × Option ScenarioNode × Bench :=
  match step with
  | .cell step =>
    match node.pending? with
    | none => (.inapplicable, some node, bench)
    | some issued =>
      let (finding, bench) := bench.cellStep issued step
      (finding, some node, bench)
  | .accept =>
    match node.pending? with
    | none => (.nothing, some node, bench)
    | some issued =>
      let (finding, bench) := accept ample 0 issued bench
      (finding, some node, bench)
  | .name =>
    match node.pending? with
    | none => (.nothing, some node, bench)
    | some issued => (.text issued.instruction.name, some node, bench)
  | .display pretty => (Scenario.display pretty (showNode node), some node, bench)
  | .kind => (.text node.kind.name, some node, bench)
  | .next =>
    match node with
    | .result value => (.returned value, none, bench)
    | .delay next => bench.force definitions next
    | .await _ next => bench.force definitions next
  | .signature => (.inapplicable, some node, bench)
  | .unknown => (.inapplicable, some node, bench)

def programSteps (definitions : List Definition) :
    Option ScenarioNode → List BenchStep → Bench → List Finding × Bench
  | _, [], bench => ([], bench)
  | none, _ :: rest, bench =>
    let (findings, bench) := programSteps definitions none rest bench
    (.consumed :: findings, bench)
  | some node, step :: rest, bench =>
    let (finding, node, bench) := bench.programStep definitions node step
    let (findings, bench) := programSteps definitions node rest bench
    (finding :: findings, bench)

def ofInstruction (op : Op) (steps : List BenchStep) (bench : Bench) : List Finding × Bench :=
  let (issued, world) := bench.world.issue op
  instructionSteps issued steps { bench with world := world }

def ofProgram (definitions : List Definition) (source : Source) (steps : List BenchStep)
    (bench : Bench) : List Finding × Bench :=
  let (node, world) := source.node definitions bench.world
  programSteps definitions (some node) steps { bench with world := world }

end Bench

end Trampoline.Scenario
