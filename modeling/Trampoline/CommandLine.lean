import Trampoline.Booking.Demo
import Trampoline.FileTree
import Trampoline.Schema.Document

/-!
The command line: checking a schema, printing its shape, and running the demonstration. What a command
prints is determined by its arguments, the file it reads and the identity of its run.
-/
namespace Trampoline.CommandLine

/-- What the program is asked to do. -/
inductive Command where
  /-- Checks the schema in a file. -/
  | check (path : String)
  /-- Prints the shape of the schema in a file. -/
  | shape (path : String)
  /-- Runs the demonstration with the given settings. -/
  | demo (demo : Booking.Demo) (config : Option String)

/-- The options of the demonstration as they were given. -/
structure Options where
  date : Option String
  quantity : Option String
  capacity : Option String
  config : Option String

def Options.none : Options :=
  ⟨.none, .none, .none, .none⟩

/-- Gives an option its value. There is no such option, or it was given before, otherwise. -/
def Options.set (options : Options) (name value : String) : Option Options :=
  match name with
  | "date" => if options.date.isSome then .none else some { options with date := value }
  | "quantity" =>
    if options.quantity.isSome then .none else some { options with quantity := value }
  | "capacity" =>
    if options.capacity.isSome then .none else some { options with capacity := value }
  | "config" => if options.config.isSome then .none else some { options with config := value }
  | _ => .none

/-- Whether an argument is meant as an option; a single hyphen is not. -/
def isOption (argument : String) : Bool :=
  match argument.toList with
  | '-' :: _ :: _ => true
  | _ => false

/-- Reads the options of the demonstration. The value of an option follows it, or is joined to it by
an equals sign. -/
def readOptions : (arguments : List String) → Options → Option Options
  | [], options => some options
  | ["--"], options => some options
  | argument :: rest, options =>
    match argument.toList with
    | '-' :: '-' :: text =>
      let name := String.ofList (text.takeWhile (· != '='))
      match text.dropWhile (· != '=') with
      | _ :: value => do readOptions rest (← options.set name (String.ofList value))
      | [] =>
        match rest with
        | [] => .none
        | value :: rest =>
          if isOption value then .none else do readOptions rest (← options.set name value)
    | _ => .none

/-- Reads an unsigned 32-bit word, which may have a sign. -/
def readWord32 (text : String) : Option UInt32 :=
  let (negative, digits) := match text.toList with
    | '-' :: rest => (true, rest)
    | '+' :: rest => (false, rest)
    | digits => (false, digits)
  if digits.isEmpty || !digits.all Char.isDigit then .none
  else
    let n := Json.ofDigits digits
    if n = 0 then some 0
    else if negative then .none
    else if n < UInt32.size then some (UInt32.ofNat n)
    else .none

def Options.demo (options : Options) : Option Booking.Demo := do
  return {
    date := options.date.getD "2030-01-01"
    quantity := ← readWord32 (options.quantity.getD "4")
    capacity := ← readWord32 (options.capacity.getD "10") }

/-- Reads the single path of a command, which is not empty. -/
def readPath (arguments : List String) : Option String :=
  match arguments with
  | ["--", path] => if path.isEmpty then .none else some path
  | [path] => if path.isEmpty || isOption path then .none else some path
  | [path, "--"] => if path.isEmpty || isOption path then .none else some path
  | _ => .none

/-- Reads the arguments of the program; there is no command in those that are wrong. -/
def readCommand (arguments : List String) : Option Command :=
  match arguments with
  | "check" :: rest => (readPath rest).map .check
  | "shape" :: rest => (readPath rest).map .shape
  | "demo" :: rest => do
    let options ← readOptions rest .none
    return .demo (← options.demo) options.config
  | _ => .none

/-- What the program leaves behind: its exit status, what it reported on its way, and what it wrote to
its output and to its error output. -/
structure Outcome where
  status : Nat
  logs : List String
  output : String
  errors : String
  deriving DecidableEq

/-- The causes of an error, one to a line, and numbered if there are several. -/
def causeLines : List String → List String
  | [] => []
  | [cause] => ["    " ++ cause]
  | causes => causes.zipIdx.map fun (cause, i) => "    " ++ toString i ++ ": " ++ cause

/-- How an error is reported at the end of a program. -/
def errorReport (message : String) (causes : List String) : String :=
  let tail := match causes with
    | [] => ""
    | causes => "\n\nCaused by:\n" ++ "\n".intercalate (causeLines causes)
  "Error: " ++ message ++ tail ++ "\n"

def Outcome.failure (logs : List String) (message : String) (causes : List String) : Outcome :=
  ⟨1, logs, "", errorReport message causes⟩

def Outcome.success (logs : List String) (output : List String) : Outcome :=
  ⟨0, logs, String.join (output.map (· ++ "\n")), ""⟩

/-- The part of the program that an event is reported under. -/
def target (event : Event) : String :=
  if event.isHandlers then "reify::runtime::instrument" else "reify::runtime::executor"

/-- Whether an event is important enough for the log. -/
def isLogged (event : Event) : Bool :=
  match event.level with
  | .trace => false
  | .debug => false
  | .info => true
  | .warn => true

def logLine (event : Event) : String :=
  event.level.name ++ " " ++ target event ++ ": " ++ event.message ++
    String.join (event.fields.map fun (name, value) => " " ++ name ++ "=" ++ value.logged)

/-- Reads a schema from a file, of which the content is given or what kept it from being read. -/
def loadSchema (path : String) (content : Except ReadFault String) : Except Outcome Schema :=
  match content with
  | .error fault => .error (.failure [] ("reading schema " ++ path) [fault.message])
  | .ok text =>
    match Schema.ofJson text with
    | .error e => .error (.failure [] e.message [])
    | .ok schema => .ok schema

def reservationLine (r : Booking.Reservation) : String :=
  "  " ++ r.date ++ " " ++ r.name ++ " x" ++ toString r.quantity.toNat

def resultLine : Option UInt32 → String
  | some id => "Accepted reservation #" ++ toString id.toNat
  | none => "Reservation rejected"

/-- Runs the demonstration, as the run with the given identity. -/
def runDemo (demo : Booking.Demo) (config : RunConfig) (runId : String) : Outcome :=
  let (run, events) := demo.run config
  let logs := (events.toList.filter isLogged).map logLine
  match run.outcome? with
  | none => .failure logs "" []
  | some (.error e) => .failure logs e.message e.chain
  | some (.ok result) =>
    .success logs <|
      resultLine result ::
      ("Run " ++ runId ++ ": " ++ toString run.stats.steps ++ " steps, " ++
        toString run.stats.dispatches ++ " dispatches") ::
      run.handler.reservations.map reservationLine

def Command.run (command : Command) (readFile : String → Except ReadFault String)
    (runId : String) : Outcome :=
  match command with
  | .check path =>
    match loadSchema path (readFile path) with
    | .error outcome => outcome
    | .ok schema =>
      .success [] ["Schema " ++ schema.baseName ++ " is valid (" ++
        toString schema.instructions.length ++ " instructions)"]
  | .shape path =>
    match loadSchema path (readFile path) with
    | .error outcome => outcome
    | .ok schema =>
      match Shape.resolve schema with
      | .error e => .failure [] e.message []
      | .ok resolved => .success [] [Document.pretty resolved]
  | .demo wanted config =>
    match config with
    | none => runDemo wanted .default runId
    | some text =>
      match RunConfig.ofJson text with
      | .error e => .failure [] e.message []
      | .ok config => runDemo wanted config runId

end Trampoline.CommandLine
