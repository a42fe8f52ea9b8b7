import Trampoline.Handler.Basic
import Trampoline.Scenario.Op

/-!
The service that carries out the instructions of scenarios. It keeps a table of numbers, an output and
a clock. A list of disturbances, each for one call in the life of the service, makes calls late, makes
them fail before or after their effect, or lets the service meddle with the cell of the instruction.
-/
namespace Trampoline.Scenario

/-- What the service keeps. -/
structure Service where
  /-- The table, with the keys in the order in which they were first stored. -/
  entries : List (String × Int64)
  out : Array String
  ticks : Nat
  /-- The number of calls so far. -/
  calls : Nat

/-- What is special about one call. -/
structure Disturbance where
  /-- The number of the call, counted from zero over the life of the service. -/
  call : Nat
  /-- How often the call is polled in vain. -/
  delay : Nat
  /-- The failure of the call before it has any effect. -/
  deny : Option Failure
  /-- What the service puts into the instruction's cell by itself. -/
  preset : Option Value
  /-- Whether the service takes the answer out of the instruction's cell. -/
  steal : Bool
  /-- The failure of the call after its effect. -/
  fail : Option Failure

namespace Service

def fresh (entries : List (String × Int64)) : Service :=
  ⟨entries, #[], 0, 0⟩

def get? (service : Service) (key : String) : Option Int64 :=
  service.entries.lookup key

def putEntry (key : String) (value : Int64) : List (String × Int64) → List (String × Int64)
  | [] => [(key, value)]
  | (k, v) :: rest => if k = key then (k, value) :: rest else (k, v) :: putEntry key value rest

/-- The running sums of numbers from a given sum on; they wrap around. -/
def runningSums (sum : Int64) : List Int64 → List Int64
  | [] => []
  | n :: rest => (sum + n) :: runningSums (sum + n) rest

/-- A sum, unless it leaves the range of signed 64-bit words. -/
def checkedAdd (a b : Int64) : Option Int64 :=
  let sum := a.toInt + b.toInt
  if Int64.minValue.toInt ≤ sum ∧ sum ≤ Int64.maxValue.toInt then some (Int64.ofInt sum) else none

def perform (service : Service) : Op → Except Failure Value × Service
  | .get key =>
    if key.isEmpty then (.error ⟨"empty key", []⟩, service)
    else (.ok (.ofInt? (service.get? key)), service)
  | .put key value =>
    (.ok (.ofInt? (service.get? key)),
      { service with entries := putEntry key value service.entries })
  | .emit text => (.ok .unit, { service with out := service.out.push text })
  | .tick =>
    let ticks := service.ticks + 1
    (.ok (.int (Int64.ofNat ticks)), { service with ticks := ticks })
  | .add a b =>
    match checkedAdd a b with
    | some sum => (.ok (.int sum), service)
    | none =>
      (.error ⟨"overflow: " ++ toString a.toInt ++ " + " ++ toString b.toInt, []⟩, service)
  | .batch items _ => (.ok (.list ((runningSums 0 items).map Value.int)), service)

/-- What the service does to the cell of an instruction, apart from answering it. -/
def meddle (disturbance : Option Disturbance) (op : Op) (cell : Cell Value) : Cell Value :=
  match disturbance with
  | none => cell
  | some d =>
    let cell := match d.preset with
      | some value => (cell.store (op.fit value)).2
      | none => cell
    if d.steal then cell.fetch.2 else cell

/-- A call that is not to wait any longer. -/
def complete (disturbance : Option Disturbance) (op : Op) (service : Service)
    (cell : Cell Value) : Polled Value Service :=
  match disturbance.bind (·.deny) with
  | some failure => ⟨.refused failure, service, cell, []⟩
  | none =>
    match service.perform op with
    | (.error failure, service) => ⟨.refused failure, service, cell, []⟩
    | (.ok value, service) =>
      let cell := meddle disturbance op cell
      match disturbance.bind (·.fail) with
      | some failure => ⟨.refused failure, service, cell, []⟩
      | none => ⟨.answered value, service, cell, []⟩

/-- The service as a handler. A call is counted when it begins. -/
def handler (disturbances : List Disturbance) : Handler Op Value Service where
  poll op polls service cell :=
    let service := if polls = 0 then { service with calls := service.calls + 1 } else service
    let disturbance := disturbances.find? fun d => d.call + 1 == service.calls
    if polls < (disturbance.map (·.delay)).getD 0 then ⟨.pending, service, cell, []⟩
    else complete disturbance op service cell

end Service

end Trampoline.Scenario
