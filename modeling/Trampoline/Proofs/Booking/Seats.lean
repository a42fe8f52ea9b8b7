import Trampoline.Booking.Basic

/-!
How many seats are taken. A booking adds them up in 32-bit words and gives up where the sum is none; what
it decides on is the exact sum all the same, since no capacity goes beyond a word.
-/
namespace Trampoline.Booking

/-- The seats of reservations, however many there are. -/
def seatCount (reservations : List Reservation) : Nat :=
  reservations.foldr (fun r total => r.quantity.toNat + total) 0

theorem seatCount_concat (reservations : List Reservation) (r : Reservation) :
    seatCount (reservations ++ [r]) = seatCount reservations + r.quantity.toNat := by
  induction reservations with
  | nil => exact Nat.add_comm _ _
  | cons first rest ih =>
    change first.quantity.toNat + seatCount (rest ++ [r]) = _
    rw [ih, ← Nat.add_assoc]
    rfl

namespace House

/-- The seats that are reserved on a day. -/
def seatsOn (house : House) (date : String) : Nat :=
  seatCount (house.reservations.filter fun r => r.date == date)

/-- The house with one more reservation. -/
def reserve (house : House) (r : Reservation) : House :=
  { house with reservations := house.reservations ++ [r] }

/-- A request fits if its day lies in the future and enough seats are left on it. -/
def Fits (house : House) (capacity : UInt32) (request : Reservation) : Prop :=
  house.today < request.date ∧
    request.quantity.toNat + house.seatsOn request.date ≤ capacity.toNat

/-- A reservation takes its seats on its own day. -/
theorem seatsOn_reserve (house : House) (r : Reservation) (date : String) :
    (house.reserve r).seatsOn date =
      house.seatsOn date + if r.date = date then r.quantity.toNat else 0 := by
  by_cases h : r.date = date <;> simp [seatsOn, reserve, List.filter_append, seatCount_concat, h]

/-- Where a request fits no day has more seats taken afterwards than are granted. -/
theorem Fits.seatsOn_le {house : House} {capacity : UInt32} {request : Reservation}
    (h : house.Fits capacity request) (hs : ∀ date, house.seatsOn date ≤ capacity.toNat)
    (date : String) : (house.reserve request).seatsOn date ≤ capacity.toNat := by
  rw [seatsOn_reserve]
  split
  · subst date
    have := h.2
    omega
  · exact hs date

end House

/-- Seats are added up exactly, as long as their number is a word. -/
theorem seats_eq_some_iff (requested : UInt32) (reservations : List Reservation) (total : UInt32) :
    seats requested reservations = some total ↔
      requested.toNat + seatCount reservations = total.toNat := by
  induction reservations generalizing requested with
  | nil => simp [seats, seatCount, UInt32.toNat_inj]
  | cons r rest ih =>
    have hs : seats requested (r :: rest) =
        (checkedAdd requested r.quantity).bind fun sum => seats sum rest :=
      List.foldlM_cons
    have hc : seatCount (r :: rest) = r.quantity.toNat + seatCount rest := rfl
    have ht : total.toNat < UInt32.size := total.toNat_lt
    rw [hs, hc, checkedAdd]
    split
    · rename_i hlt
      have hsum : (requested + r.quantity).toNat = requested.toNat + r.quantity.toNat := by
        rw [UInt32.toNat_add]
        exact Nat.mod_eq_of_lt hlt
      rw [Option.bind_some, ih, hsum, Nat.add_assoc]
    · simp only [Option.bind_none, reduceCtorEq, false_iff]
      omega

/-- What a booking decides on. -/
theorem exists_seats_le_iff (capacity requested : UInt32) (reservations : List Reservation) :
    (∃ total, seats requested reservations = some total ∧ total ≤ capacity) ↔
      requested.toNat + seatCount reservations ≤ capacity.toNat := by
  simp only [seats_eq_some_iff, UInt32.le_iff_toNat_le]
  constructor
  · rintro ⟨total, hs, hle⟩
    exact hs ▸ hle
  · intro h
    have hlt : requested.toNat + seatCount reservations < UInt32.size :=
      Nat.lt_of_le_of_lt h capacity.toNat_lt
    have ht : (UInt32.ofNat (requested.toNat + seatCount reservations)).toNat = _ :=
      UInt32.toNat_ofNat_of_lt hlt
    exact ⟨_, ht.symm, ht.symm ▸ h⟩

end Trampoline.Booking
