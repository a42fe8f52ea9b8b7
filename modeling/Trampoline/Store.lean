import Trampoline.Failure

/-!
The store that running programs share: the cells of their instructions, the requests that
descriptions have made, and for every description one slot through which its requests reach the
executor.

A request keeps its instruction until it is polled while the slot of its description is free. It then
takes the next ticket of that slot and puts the instruction there, until the instruction is collected at
the end of the resumption or the request is dropped. A slot holds at most one instruction, so requests
that are polled while it is taken keep theirs.
-/
namespace Trampoline

/-- An instruction together with the cell that its answer goes to. -/
structure Issued (I : Type) where
  instruction : I
  /-- The number of the cell. -/
  cell : Nat
  deriving DecidableEq

/-- The place through which the requests of one description reach the executor. -/
structure Slot (I : Type) where
  /-- How many tickets were given out; the last one has this number. -/
  issued : Nat
  /-- The instruction in the slot, with the ticket of its request. -/
  pending : Option (Nat × Issued I)
  deriving DecidableEq

def Slot.fresh {I : Type} : Slot I :=
  ⟨0, none⟩

/-- Whether the instruction in the slot is the one with this ticket. -/
def Slot.holds {I : Type} (slot : Slot I) (ticket : Nat) : Bool :=
  match slot.pending with
  | some (t, _) => t == ticket
  | none => false

/-- A request for an instruction to be carried out. -/
structure Request (I : Type) where
  /-- What was asked for. The cell is read in the end, but what goes into the slot is the instruction that
  the request still keeps. -/
  issued : Issued I
  /-- The slot of the description that made the request. -/
  slot : Nat
  /-- The instruction, until a poll puts it into the slot. -/
  instruction : Option (Issued I)
  /-- The ticket under which the instruction was put into the slot. -/
  ticket : Option Nat
  /-- A request that was dropped can be polled no more. -/
  dropped : Bool
  deriving DecidableEq

/-- A request that was never polled. -/
def Request.fresh {I : Type} (issued : Issued I) (slot : Nat) : Request I :=
  ⟨issued, slot, some issued, none, false⟩

/-- The request once its instruction is in the slot under the given ticket. -/
def Request.ticketed {I : Type} (request : Request I) (ticket : Nat) : Request I :=
  { request with instruction := none, ticket := some ticket }

def Request.drop {I : Type} (request : Request I) : Request I :=
  { request with dropped := true }

/-- The cells, slots and requests made so far, each known by its number, and a value that all
descriptions share. -/
structure Store (I V X : Type) where
  cells : Array (Cell V)
  slots : Array (Slot I)
  requests : Array (Request I)
  shared : X

namespace Store

variable {I V X : Type}

def fresh (shared : X) : Store I V X :=
  ⟨#[], #[], #[], shared⟩

/-- The cell with the given number; one that was never made counts as empty. -/
def cellAt (store : Store I V X) (cell : Nat) : Cell V :=
  store.cells.getD cell .empty

def newCell (store : Store I V X) : Nat × Store I V X :=
  (store.cells.size, { store with cells := store.cells.push .empty })

def putCell (store : Store I V X) (cell : Nat) (value : Cell V) : Store I V X :=
  { store with cells := store.cells.setIfInBounds cell value }

def takeCell (store : Store I V X) (cell : Nat) : Except CellError V × Store I V X :=
  match (store.cellAt cell).take with
  | .ok (value, rest) => (.ok value, store.putCell cell rest)
  | .error e => (.error e, store)

/-- Makes an instruction with an empty cell of its own. -/
def issue (store : Store I V X) (instruction : I) : Issued I × Store I V X :=
  let (cell, store) := store.newCell
  (⟨instruction, cell⟩, store)

/-- Makes the slot of a new description and gives its number. -/
def newSlot (store : Store I V X) : Nat × Store I V X :=
  (store.slots.size, { store with slots := store.slots.push .fresh })

/-- The slot with the given number; one that was never made counts as unused. -/
def slotAt (store : Store I V X) (slot : Nat) : Slot I :=
  store.slots.getD slot .fresh

/-- Makes a request, which keeps its instruction until it is polled, and gives its number. -/
def request (store : Store I V X) (slot : Nat) (instruction : I) : Nat × Store I V X :=
  let (issued, store) := store.issue instruction
  (store.requests.size, { store with requests := store.requests.push (.fresh issued slot) })

def putRequest (store : Store I V X) (r : Nat) (request : Request I) : Store I V X :=
  { store with requests := store.requests.setIfInBounds r request }

/-- Puts the instruction of request number `r` into the slot, under a new ticket. -/
def occupy (store : Store I V X) (r : Nat) (request : Request I) (instruction : Issued I) :
    Store I V X :=
  let ticket := (store.slotAt request.slot).issued + 1
  { store.putRequest r (request.ticketed ticket) with
    slots := store.slots.setIfInBounds request.slot ⟨ticket, some (ticket, instruction)⟩ }

/-- Polls a request. As long as it keeps its instruction there is no answer: the instruction is taken
from it, and goes into the slot, or back to the request if the slot is taken. There is none either while
the instruction is in the slot. Afterwards the answer is what the cell gives. -/
def poll (store : Store I V X) (r : Nat) : Option (Except CellError V) × Store I V X :=
  match store.requests[r]? with
  | none => (none, store)
  | some request =>
    if request.dropped then (none, store)
    else
      match request.instruction with
      | some instruction =>
        let request := { request with instruction := none }
        match (store.slotAt request.slot).pending with
        | none => (none, store.occupy r request instruction)
        | some _ => (none, store.putRequest r { request with instruction := some instruction })
      | none =>
        if request.ticket.any (store.slotAt request.slot).holds then (none, store)
        else
          let (answer, store) := store.takeCell request.issued.cell
          (some answer, store)

def vacate (store : Store I V X) (slot : Nat) : Store I V X :=
  { store with slots := store.slots.modify slot fun s => { s with pending := none } }

/-- Drops a request. If its instruction is in the slot it is withdrawn from there; otherwise nothing
but the request itself is affected. Nothing is dropped twice. -/
def drop (store : Store I V X) (r : Nat) : Store I V X :=
  match store.requests[r]? with
  | none => store
  | some request =>
    if request.dropped then store
    else
      let store := store.putRequest r request.drop
      if request.ticket.any (store.slotAt request.slot).holds then store.vacate request.slot
      else store

def dropAll (store : Store I V X) (requests : List Nat) : Store I V X :=
  requests.foldl drop store

/-- Collects the instruction in a slot, which is empty afterwards. -/
def collect (store : Store I V X) (slot : Nat) : Option (Issued I) × Store I V X :=
  match (store.slotAt slot).pending with
  | none => (none, store)
  | some (_, issued) => (some issued, store.vacate slot)

end Store

end Trampoline
