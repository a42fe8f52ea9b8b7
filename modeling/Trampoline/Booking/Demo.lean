import Trampoline.Booking.Basic
import Trampoline.Handler.Observed
import Trampoline.Run.Basic

/-!
The demonstration: one request at a house that has a single reservation on the same day. The calls of
the house are reported.
-/
namespace Trampoline.Booking

/-- What is asked for in the demonstration. -/
structure Demo where
  date : String
  quantity : UInt32
  capacity : UInt32

def Demo.house (demo : Demo) : House :=
  ⟨"2026-01-01", [⟨demo.date, "house", 2⟩]⟩

def Demo.request (demo : Demo) : Reservation :=
  ⟨demo.date, "guest", demo.quantity⟩

abbrev Step :=
  Thunk Answer (Sequential.Written Instruction Answer (Option UInt32))
    (Sequential.Resumable Instruction Answer (Option UInt32))

/-- The executor of bookings, with a house whose calls are reported. -/
def executor (config : RunConfig) : Executor Instruction Answer Unit (Option UInt32) Step House :=
  ⟨config, Sequential.language.unfolding, House.handler.logged⟩

/-- A booking at a house, as a run that has not begun. -/
def start (capacity : UInt32) (request : Reservation) (house : House) :
    Run Instruction (Option UInt32) Step House × Store Instruction Answer Unit :=
  let (node, store) :=
    Sequential.language.node (.described (tryAccept capacity request)) (.fresh ())
  (.start node house, store)

/-- Polls a booking until it is over. The fuel bounds the number of polls. -/
def finish (config : RunConfig) :
    (fuel : Nat) → Run Instruction (Option UInt32) Step House →
      Store Instruction Answer Unit → Array Event →
      Run Instruction (Option UInt32) Step House × Array Event
  | 0, run, _, events => (run, events)
  | fuel + 1, run, store, events =>
    let (run, store, events) := (executor config).poll Array.push stepsAtMost run store events
    if run.outcome?.isSome then (run, events) else finish config fuel run store events
where
  /-- More steps than a booking has: it carries out three instructions at most. -/
  stepsAtMost : Nat := 16

def Demo.run (demo : Demo) (config : RunConfig) :
    Run Instruction (Option UInt32) Step House × Array Event :=
  let (run, store) := start demo.capacity demo.request demo.house
  finish config 16 run store #[]

end Trampoline.Booking
