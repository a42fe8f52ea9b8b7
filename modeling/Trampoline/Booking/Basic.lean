import Trampoline.InstructionSet
import Trampoline.Handler.Basic
import Trampoline.Sequential

/-!
Booking a table. A request for seats on a day is accepted if the day lies in the future and the seats
fit in with those already reserved for it. The decision is a program; a house with a list of
reservations carries out its instructions.
-/
namespace Trampoline.Booking

/-- Seats for a guest on a day. -/
structure Reservation where
  date : String
  name : String
  quantity : UInt32
  deriving DecidableEq

def Reservation.rendering (r : Reservation) : Rendering :=
  .record "Reservation" [("date", .quoted r.date), ("name", .quoted r.name),
    ("quantity", .bare (toString r.quantity.toNat))]

/-- What a booking asks of the house. -/
inductive Instruction where
  | isInFuture (reservation : Reservation)
  | read (date : String)
  | create (reservation : Reservation)
  deriving DecidableEq

namespace Instruction

def schema : Schema :=
  .declare "ReservationInstruction" [
    ("IsReservationInFuture", [("reservation", "Reservation")], "bool"),
    ("ReadReservations", [("date", "String")], "Vec<Reservation>"),
    ("CreateReservation", [("reservation", "Reservation")], "u32")]

def name : Instruction → String
  | isInFuture _ => "IsReservationInFuture"
  | read _ => "ReadReservations"
  | create _ => "CreateReservation"

def rendering : Instruction → Rendering
  | isInFuture r => .record "IsReservationInFuture" [("reservation", r.rendering)]
  | read date => .record "ReadReservations" [("date", .quoted date)]
  | create r => .record "CreateReservation" [("reservation", r.rendering)]

instance : InstructionSet Instruction where
  schema := schema
  name := name
  rendering := rendering

end Instruction

/-- What the house answers. -/
inductive Answer where
  | decision (yes : Bool)
  | found (reservations : List Reservation)
  | created (id : UInt32)
  deriving DecidableEq

namespace Answer

/-- The decision in an answer; no if it holds none. -/
def isYes : Answer → Bool
  | decision yes => yes
  | found _ => false
  | created _ => false

def reservations : Answer → List Reservation
  | found rs => rs
  | decision _ => []
  | created _ => []

def id : Answer → UInt32
  | created id => id
  | decision _ => 0
  | found _ => 0

end Answer

/-- The house: its present day, and its reservations in the order in which they were made. -/
structure House where
  today : String
  reservations : List Reservation
  deriving DecidableEq

/-- The failure of a reservation whose number does not fit a 32-bit word. -/
def numberTooLarge : Failure :=
  ⟨"out of range integral type conversion attempted", []⟩

/-- Carries out an instruction. A reservation is numbered by its place, and it is made even if the
number does not fit. -/
def House.perform (house : House) : Instruction → Except Failure Answer × House
  | .isInFuture r => (.ok (.decision (house.today < r.date)), house)
  | .read date =>
    (.ok (.found (house.reservations.filter fun r => r.date == date)), house)
  | .create r =>
    let house := { house with reservations := house.reservations ++ [r] }
    let number := house.reservations.length
    if number < UInt32.size then (.ok (.created (UInt32.ofNat number)), house)
    else (.error numberTooLarge, house)

/-- The house as a handler. It answers at once and leaves cells alone. -/
def House.handler : Handler Instruction Answer House where
  poll instruction _ house cell :=
    match house.perform instruction with
    | (.ok answer, house) => ⟨.answered answer, house, cell, []⟩
    | (.error failure, house) => ⟨.refused failure, house, cell, []⟩

/-- The sum of two words, if it is a word. -/
def checkedAdd (a b : UInt32) : Option UInt32 :=
  if a.toNat + b.toNat < UInt32.size then some (a + b) else none

/-- The seats of a request together with those of the reservations, if their number is a word. -/
def seats (requested : UInt32) (reservations : List Reservation) : Option UInt32 :=
  reservations.foldlM (fun total r => checkedAdd total r.quantity) requested

/-- Decides on a request. The result is the number of the new reservation, or nothing where the
request is rejected. -/
def tryAccept (capacity : UInt32) (request : Reservation) :
    Sequential Instruction Answer (Option UInt32) :=
  .perform (.isInFuture request) fun answer =>
    if answer.isYes then
      .perform (.read request.date) fun answer =>
        match seats request.quantity answer.reservations with
        | none => .pure none
        | some total =>
          if total ≤ capacity then
            .perform (.create request) fun answer => .pure (some answer.id)
          else .pure none
    else .pure none

end Trampoline.Booking
