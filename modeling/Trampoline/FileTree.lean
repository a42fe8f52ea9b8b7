/-!
The files that a command can find. A path is followed from folder to folder, and what keeps the file at
its end from being read is told in the words and with the number of the operating system.
-/
namespace Trampoline

/-- What keeps a file from being read. -/
inductive ReadFault where
  /-- Nothing has that name. -/
  | missing
  /-- The file is not for this reader. -/
  | denied
  /-- The path goes on behind a file. -/
  | behindFile
  /-- There is a folder in place of a file. -/
  | folder
  /-- The path, or one name in it, is longer than the system allows. -/
  | tooLong
  /-- What is in the file is no text. -/
  | notText
  /-- Anything else, in the words of the system. -/
  | other (message : String)
  deriving DecidableEq

def ReadFault.message : ReadFault → String
  | missing => "No such file or directory (os error 2)"
  | denied => "Permission denied (os error 13)"
  | behindFile => "Not a directory (os error 20)"
  | folder => "Is a directory (os error 21)"
  | tooLong => "File name too long (os error 36)"
  | notText => "stream did not contain valid UTF-8"
  | other message => message

/-- A file with its text, or a folder with the names in it. -/
inductive FileTree where
  | file (text : String)
  | folder (entries : List (String × FileTree))

namespace FileTree

/-- The number of bytes that the name of a file may have. -/
def longestName : Nat :=
  255

def longestPath : Nat :=
  4095

/-- Follows the names of a path. An empty name and a single dot stay in the folder, two dots go back to
the folder above; `above` are these folders, and above the root is the root. -/
def follow : (names : List String) → FileTree → (above : List FileTree) → Except ReadFault FileTree
  | [], here, _ => .ok here
  | _ :: _, file _, _ => .error .behindFile
  | name :: names, folder entries, above =>
    if name = "" ∨ name = "." then follow names (folder entries) above
    else if name = ".." then
      match above with
      | [] => follow names (folder entries) []
      | parent :: above => follow names parent above
    else if longestName < name.utf8ByteSize then .error .tooLong
    else
      match entries.lookup name with
      | none => .error .missing
      | some next => follow names next (folder entries :: above)

/-- The text of the file at a path. A path that does not begin at the root begins at the folder
`current`, which is given by its names from the root. -/
def read (root : FileTree) (current : List String) (path : String) : Except ReadFault String := do
  if path.isEmpty then throw .missing
  if longestPath < path.utf8ByteSize then throw .tooLong
  let names := path.splitOn "/"
  match ← root.follow (if names.head? = some "" then names else current ++ names) [] with
  | file text => return text
  | folder _ => throw .folder

end FileTree

end Trampoline
