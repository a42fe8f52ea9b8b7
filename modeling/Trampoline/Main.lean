import Trampoline.CommandLine
import Trampoline.RunId

/-!
The program: it reads the file that its command names, runs the command and prints what it left
behind.
-/
namespace Trampoline.CommandLine

/-- The fault that an error of the system stands for. -/
def readFault : IO.Error → ReadFault
  | .noFileOrDirectory _ _ _ => .missing
  | .permissionDenied _ _ _ => .denied
  | .inappropriateType none _ _ => .folder
  | .inappropriateType (some _) _ _ => .behindFile
  | .invalidArgument (some path) code details =>
    if code = 36 ∨ code = -36 then .tooLong else .other (toString path ++ details)
  | e => .other (toString e)

/-- Reads a file, or tells what keeps it from being read. -/
def readContent (path : String) : IO (Except ReadFault String) := do
  try
    match String.fromUTF8? (← IO.FS.readBinFile path) with
    | some text => return .ok text
    | none => return .error .notText
  catch e => return .error (readFault e)

def newRunId : IO RunId := do
  let bytes ← IO.getRandomBytes 16
  let n := bytes.toList.foldl (fun n b => 256 * n + b.toNat) 0
  return .ofRandom (BitVec.ofNat 128 n)

def Command.path? : Command → Option String
  | .check path => some path
  | .shape path => some path
  | .demo _ _ => none

/-- Runs a command and prints what it left behind. -/
def perform (command : Command) : IO UInt32 := do
  let content ← match command.path? with
    | some path => readContent path
    | none => pure (.error .missing)
  let outcome := command.run (fun _ => content) (← newRunId).text
  for line in outcome.logs do
    IO.println line
  IO.print outcome.output
  IO.eprint outcome.errors
  return UInt32.ofNat outcome.status

end Trampoline.CommandLine

/-- Runs the command that the arguments ask for; wrong arguments are told by the exit status. -/
def main (arguments : List String) : IO UInt32 := do
  match Trampoline.CommandLine.readCommand arguments with
  | some command => Trampoline.CommandLine.perform command
  | none =>
    IO.eprintln "error: the arguments are none of: check FILE, shape FILE, demo [OPTIONS]"
    return 2
