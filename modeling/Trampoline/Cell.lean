/-!
Write-once cells. A cell carries one answer from the handler that produced it to the program that
asked for it: it is filled at most once and emptied at most once, and it never becomes fresh again.
-/
namespace Trampoline

/-- What can go wrong with a cell. -/
inductive CellError where
  | alreadySet
  | unset
  | alreadyTaken
  deriving DecidableEq

def CellError.message : CellError → String
  | .alreadySet => "result cell was already set"
  | .unset => "result cell was read before it was set"
  | .alreadyTaken => "result cell was already taken"

/-- A cell is empty, holds its one answer, or has handed it out. -/
inductive Cell (V : Type) where
  | empty
  | full (value : V)
  | taken
  deriving DecidableEq

namespace Cell

variable {V : Type}

/-- Fills an empty cell. A cell that was ever filled refuses and stays as it is. -/
def set (value : V) : Cell V → Except CellError (Cell V)
  | .empty => .ok (.full value)
  | .full _ => .error .alreadySet
  | .taken => .error .alreadySet

/-- Hands out the answer, together with the cell it leaves behind. -/
def take : Cell V → Except CellError (V × Cell V)
  | .empty => .error .unset
  | .full value => .ok (value, .taken)
  | .taken => .error .alreadyTaken

/-- Whether the cell was ever filled; handing the answer out does not undo that. -/
def isSet : Cell V → Bool
  | .empty => false
  | .full _ => true
  | .taken => true

/-- `set` that keeps the cell when it refuses. -/
def store (value : V) (cell : Cell V) : Except CellError Unit × Cell V :=
  match cell.set value with
  | .ok filled => (.ok (), filled)
  | .error e => (.error e, cell)

/-- `take` that keeps the cell when it refuses. -/
def fetch (cell : Cell V) : Except CellError V × Cell V :=
  match cell.take with
  | .ok (value, rest) => (.ok value, rest)
  | .error e => (.error e, cell)

/-- The word for a cell's condition; the answer itself is never shown. -/
def condition : Cell V → String
  | .empty => "empty"
  | .full _ => "set"
  | .taken => "taken"

end Cell

end Trampoline
