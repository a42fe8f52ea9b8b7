import Trampoline.Schema.Document

/-!
The settings of a run, and the counts that a run keeps. All numbers are unsigned 64-bit words in
documents.
-/
namespace Trampoline

/-- The settings of a run. -/
structure RunConfig where
  /-- After how many steps the run lets others go first; it never does if this is absent or zero. -/
  yieldInterval : Option Nat
  /-- How many steps the program may take. -/
  stepLimit : Option Nat
  /-- Whether every step is reported. -/
  debug : Bool
  deriving DecidableEq

/-- No pauses, no limit and no reports. -/
def RunConfig.default : RunConfig :=
  ⟨none, none, false⟩

instance : Document RunConfig where
  format := .record "ExecutorConfig" <|
    .cons "yield_interval" .defaulted (.optional (.word "u64")) <|
    .cons "step_limit" .defaulted (.optional (.word "u64")) <|
    .cons "debug" .defaulted .flag .nil
  toValue c := (c.yieldInterval, c.stepLimit, c.debug, ())
  ofValue := fun (yieldInterval, stepLimit, debug, ()) => ⟨yieldInterval, stepLimit, debug⟩

/-- Why settings could not be read. -/
structure ConfigError where
  fault : Json.Fault
  deriving DecidableEq

def ConfigError.message (e : ConfigError) : String :=
  "Configuration error: " ++ e.fault.message

def RunConfig.ofJson (text : String) : Except ConfigError RunConfig :=
  (Document.read text).mapError ConfigError.mk

/-- What a run has done so far. -/
structure RunStats where
  /-- Nodes looked at, the last one included. -/
  steps : Nat
  /-- Steps of the program's own. -/
  delays : Nat
  /-- Instructions carried out. -/
  dispatches : Nat
  deriving DecidableEq

def RunStats.zero : RunStats :=
  ⟨0, 0, 0⟩

instance : Document RunStats where
  format := .record "RunStats" <|
    .cons "steps" .required (.word "u64") <|
    .cons "delays" .required (.word "u64") <|
    .cons "dispatches" .required (.word "u64") .nil
  toValue s := (s.steps, s.delays, s.dispatches, ())
  ofValue := fun (steps, delays, dispatches, ()) => ⟨steps, delays, dispatches⟩

end Trampoline
