import Trampoline.Proofs.Booking.Seats
import Trampoline.Proofs.Observation.Sessions
import Trampoline.Proofs.Runs.Limit
import Trampoline.Proofs.Sequential.Agreement

/-!
What becomes of a request. It is accepted exactly where it fits, and it is entered in the house in that
case only, unless a limit stops the run before the last instruction. So no day is ever overbooked.
-/
namespace Trampoline

namespace Sequential

variable {I V T H : Type}

/-- What is left of a computation when its first instruction is answered. -/
def rest : Sequential I V T → V → Sequential I V T
  | perform _ next, answer => next answer
  | pure value, _ => pure value
  | fail failure, _ => fail failure

end Sequential

namespace Booking

open Trampoline.Sequential (Performance Point)

variable {X : Type} {capacity : UInt32} {house : House} {request : Reservation}

/-- The moments of a booking, with an upper bound on how many are left. -/
inductive Deciding (capacity : UInt32) (house : House) (request : Reservation) :
    (left : Nat) → Performance Instruction Answer (Option UInt32) House → Prop
  | asking {dealings} :
    Deciding capacity house request 4 ⟨.before (tryAccept capacity request), house, dealings, 0⟩
  | reading {dealings} : house.today < request.date →
    Deciding capacity house request 3
      ⟨.before ((tryAccept capacity request).rest (.decision true)), house, dealings, 1⟩
  | creating {dealings next} : house.Fits capacity request →
    (∀ id, next (.created id) = .pure (some id)) →
    Deciding capacity house request 2
      ⟨.before (.perform (.create request) next), house, dealings, 2⟩
  | rejecting {left dealings answers} : ¬ house.Fits capacity request →
    Deciding capacity house request (left + 1) ⟨.before (.pure none), house, dealings, answers⟩
  | accepting {left dealings answers id} : house.Fits capacity request →
    id.toNat = house.reservations.length + 1 →
    Deciding capacity house request (left + 1)
      ⟨.before (.pure (some id)), house.reserve request, dealings, answers⟩
  | rejected {left dealings answers} : ¬ house.Fits capacity request →
    Deciding capacity house request left ⟨.ended (.ok none), house, dealings, answers⟩
  | accepted {left dealings answers id} : house.Fits capacity request →
    id.toNat = house.reservations.length + 1 →
    Deciding capacity house request left
      ⟨.ended (.ok (some id)), house.reserve request, dealings, answers⟩
  /-- The request is entered, but its number is no word. -/
  | overfull {left dealings answers} : house.Fits capacity request →
    UInt32.size ≤ house.reservations.length + 1 →
    Deciding capacity house request left
      ⟨.ended (.error (.handler "CreateReservation" numberTooLarge)), house.reserve request, dealings,
        answers⟩

namespace Deciding

variable {left : Nat} {p : Performance Instruction Answer (Option UInt32) House}

private theorem advance_asking (dealings : List (Dealing Instruction Answer)) :
    Deciding capacity house request 3
      (Performance.advance House.handler
        ⟨.before (tryAccept capacity request), house, dealings, 0⟩) := by
  change Deciding capacity house request 3
    ⟨.before ((tryAccept capacity request).rest (.decision (decide (house.today < request.date)))),
      house, _, 1⟩
  by_cases h : house.today < request.date
  · rw [decide_eq_true h]
    exact .reading h
  · rw [decide_eq_false h]
    exact .rejecting fun hf => h hf.1

private theorem advance_reading (h : house.today < request.date)
    (dealings : List (Dealing Instruction Answer)) :
    Deciding capacity house request 2
      (Performance.advance House.handler
        ⟨.before ((tryAccept capacity request).rest (.decision true)), house, dealings, 1⟩) := by
  change Deciding capacity house request 2
    ⟨.before (((tryAccept capacity request).rest (.decision true)).rest
      (.found (house.reservations.filter fun r => r.date == request.date))), house, _, 2⟩
  have hfits : house.Fits capacity request ↔ _ :=
    (and_iff_right h).trans (exists_seats_le_iff capacity request.quantity
      (house.reservations.filter fun r => r.date == request.date)).symm
  simp only [tryAccept, Sequential.rest, Answer.isYes, Answer.reservations, if_true]
  split
  · rename_i hs
    refine .rejecting fun hf => ?_
    obtain ⟨total, ht, -⟩ := hfits.mp hf
    rw [hs] at ht
    cases ht
  · rename_i total hs
    split
    · rename_i hle
      exact .creating (hfits.mpr ⟨total, hs, hle⟩) fun _ => rfl
    · rename_i hle
      refine .rejecting fun hf => hle ?_
      obtain ⟨total', ht, hle'⟩ := hfits.mp hf
      rw [hs] at ht
      cases ht
      exact hle'

private theorem advance_creating (hf : house.Fits capacity request)
    {next : Answer → Sequential Instruction Answer (Option UInt32)}
    (hn : ∀ id, next (.created id) = .pure (some id)) (dealings : List (Dealing Instruction Answer)) :
    Deciding capacity house request 1
      (Performance.advance House.handler
        ⟨.before (.perform (.create request) next), house, dealings, 2⟩) := by
  have hlen : (house.reservations ++ [request]).length = house.reservations.length + 1 :=
    List.length_append
  by_cases hsize : house.reservations.length + 1 < UInt32.size
  · have hp : House.handler.poll (.create request) 0 house .empty =
        ⟨.answered (.created (UInt32.ofNat (house.reservations.length + 1))),
          house.reserve request, .empty, []⟩ := by
      simp only [House.handler, House.perform, hlen, hsize, if_true]
      rfl
    rw [Performance.advance, Performance.poll, hp]
    simp only [Cell.set, hn]
    exact .accepting hf (UInt32.toNat_ofNat_of_lt hsize)
  · have hp : House.handler.poll (.create request) 0 house .empty =
        ⟨.refused numberTooLarge, house.reserve request, .empty, []⟩ := by
      simp only [House.handler, House.perform, hlen, hsize, if_false]
      rfl
    rw [Performance.advance, Performance.poll, hp]
    exact .overfull hf (Nat.not_lt.mp hsize)

/-- One moment. -/
theorem advance (h : Deciding capacity house request (left + 1) p) :
    Deciding capacity house request left (p.advance House.handler) := by
  cases h with
  | asking => exact advance_asking _
  | reading h => exact advance_reading h _
  | creating hf hn => exact advance_creating hf hn _
  | rejecting hf => exact .rejected hf
  | accepting hf hid => exact .accepted hf hid
  | rejected hf => exact .rejected hf
  | accepted hf hid => exact .accepted hf hid
  | overfull hf hsize => exact .overfull hf hsize

/-- A booking that is over stays so. -/
theorem advance_over (h : Deciding capacity house request 0 p) : p.advance House.handler = p := by
  cases h <;> rfl

theorem performed (capacity : UInt32) (house : House) (request : Reservation) (n : Nat) :
    Deciding capacity house request (4 - n)
      ((tryAccept capacity request).performed House.handler house n) := by
  induction n with
  | zero => exact .asking
  | succ n ih =>
    rw [Sequential.performed]
    by_cases hn : n < 4
    · have hleft : 4 - n = 4 - (n + 1) + 1 := by omega
      exact (hleft ▸ ih).advance
    · have hleft : 4 - n = 0 := by omega
      have hleft' : 4 - (n + 1) = 0 := by omega
      rw [hleft] at ih
      rw [hleft', ih.advance_over]
      exact ih

/-- The house is as it was, or a request that fits was entered. -/
theorem handler (h : Deciding capacity house request left p) :
    p.handler = house ∨ house.Fits capacity request ∧ p.handler = house.reserve request := by
  cases h with
  | asking => exact .inl rfl
  | reading _ => exact .inl rfl
  | creating _ _ => exact .inl rfl
  | rejecting _ => exact .inl rfl
  | accepting hf _ => exact .inr ⟨hf, rfl⟩
  | rejected _ => exact .inl rfl
  | accepted hf _ => exact .inr ⟨hf, rfl⟩
  | overfull hf _ => exact .inr ⟨hf, rfl⟩

/-- Before an instruction the house is as it was, and two instructions at most were answered. -/
theorem of_perform {i : Instruction} {next : Answer → Sequential Instruction Answer (Option UInt32)}
    (h : Deciding capacity house request left p) (hp : p.point = .before (.perform i next)) :
    p.handler = house ∧ p.answers < 3 := by
  cases h with
  | asking => exact ⟨rfl, Nat.succ_pos 2⟩
  | reading _ => exact ⟨rfl, Nat.lt_of_sub_pos Nat.zero_lt_two⟩
  | creating _ _ => exact ⟨rfl, Nat.lt_succ_self 2⟩
  | rejecting _ => cases hp
  | accepting _ _ => cases hp
  | rejected _ => cases hp
  | accepted _ _ => cases hp
  | overfull _ _ => cases hp

theorem ne_fail (h : Deciding capacity house request left p) (failure : Failure) :
    p.point ≠ .before (.fail failure) := by
  intro hp
  cases h <;> cases hp

end Deciding

/-! ### Runs -/

/-- What comes of a request in the end. -/
inductive Verdict (capacity : UInt32) (config : RunConfig) (house : House) (request : Reservation)
    {N : Type} (run : Run Instruction (Option UInt32) N House) : Prop
  /-- The number of a reservation is its place. -/
  | accepted (id : UInt32) : house.Fits capacity request → run.outcome? = some (.ok (some id)) →
    run.handler = house.reserve request → id.toNat = house.reservations.length + 1 →
    Verdict capacity config house request run
  | rejected : ¬ house.Fits capacity request → run.outcome? = some (.ok none) →
    run.handler = house → Verdict capacity config house request run
  /-- A booking is charged for four steps, one of its own and three instructions. -/
  | stopped (limit : Nat) : config.stepLimit = some limit → limit < 4 →
    run.outcome? = some (.error (.stepLimitExceeded limit)) → run.handler = house →
    Verdict capacity config house request run

/-- A run of a booking together with its store. -/
abbrev Moment (X : Type) :=
  Scene Instruction Answer X (Option UInt32) (Sequential.Written Instruction Answer (Option UInt32))
    (Sequential.Resumable Instruction Answer (Option UInt32)) House

/-- A booking that begins. -/
def begun (capacity : UInt32) (house : House) (request : Reservation)
    (store : Store Instruction Answer X) : Moment X :=
  .start Sequential.language (.described (tryAccept capacity request)) house store

/-- A booking after so many turns. -/
def booked (capacity : UInt32) (config : RunConfig) (house : House) (request : Reservation)
    (store : Store Instruction Answer X) (turns : Nat) : Moment X :=
  (begun capacity house request store).alone Sequential.language config House.handler turns

variable {store : Store Instruction Answer X} {config : RunConfig}
  {p : Performance Instruction Answer (Option UInt32) House} {moment stopped : Moment X} {left : Nat}

private theorem shows_tryAccept (hc : store.Coherent) (n : Nat) :
    (booked capacity (config.limited none) house request store (n + 1)).Shows Sequential.language 1
      ((tryAccept capacity request).performed House.handler house n) :=
  have ⟨hu, hf⟩ := Sequential.follows_described (tryAccept capacity request) hc
  Scene.shows_described rfl hu hf house n

private theorem verdict_of_shows (hs : moment.Shows Sequential.language 1 p)
    (hd : Deciding capacity house request 0 p) (hlen : house.reservations.length + 1 < UInt32.size) :
    Verdict capacity config house request moment.run := by
  cases hd with
  | rejected hf => exact .rejected hf (hs.outcome? rfl) hs.handler
  | accepted hf hid => exact .accepted _ hf (hs.outcome? rfl) hs.handler hid
  | overfull hf hsize => exact absurd hlen (Nat.not_lt.mpr hsize)

/-- Before a node that is charged the house is as it was. -/
private theorem of_reducing (hs : moment.Shows Sequential.language 1 p)
    (hd : Deciding capacity house request left p) {node}
    (hn : moment.run.stage = .reducing node) (hr : ∀ value, node ≠ .result value) :
    moment.run.stats.steps < 4 ∧ moment.run.handler = house := by
  have hpoint := hs.point
  rw [hn] at hpoint
  cases hp : p.point with
  | calling i polls cell next =>
    rw [hp] at hpoint
    obtain ⟨⟨_, _, hstage, _⟩, _⟩ := hpoint
    cases hstage
  | ended outcome =>
    rw [hp] at hpoint
    cases hpoint.1
  | before c =>
    rw [hp] at hpoint
    obtain ⟨⟨built, hbuilt, hf⟩, -, hsteps⟩ := hpoint
    cases c with
    | pure value =>
      obtain rfl := hf
      cases hbuilt
      exact absurd rfl (hr value)
    | fail failure => exact absurd hp (hd.ne_fail failure)
    | perform i next =>
      obtain ⟨hhouse, hlt⟩ := hd.of_perform hp
      exact ⟨by omega, hs.handler.trans hhouse⟩

/-- A booking that a limit stops has entered nothing. -/
private theorem of_gaveUp (hc : store.Coherent) {limit k : Nat}
    (hl : ((begun capacity house request store).reductions Sequential.language (config.limited none)
      House.handler k).length = limit)
    (hg : (booked capacity (config.limited none) house request store k).GaveUp Sequential.language
      limit stopped) : limit < 4 ∧ stopped.run.handler = house := by
  have ht : (booked capacity (config.limited none) house request store k).Tallied limit :=
    hl ▸ Scene.Tallied.alone (Scene.sound_start _ hc _ house) rfl k
  obtain ⟨node, next, hstage, hnode, rfl⟩ := hg
  cases k with
  | zero =>
    obtain rfl : 0 = limit := hl
    exact ⟨Nat.succ_pos 3, rfl⟩
  | succ k =>
    have hr : ∀ value, node ≠ .result value := by
      rintro value rfl
      obtain hnode | ⟨_, hnode⟩ := hnode <;> cases hnode
    obtain ⟨hlt, hhouse⟩ :=
      of_reducing (shows_tryAccept hc k) (Deciding.performed capacity house request k) hstage hr
    rw [Scene.Tallied, hstage] at ht
    exact ⟨ht ▸ hlt, hhouse⟩

/-- Whether there is a limit or not, a booking goes on as without one or was stopped by it. -/
private theorem booked_cases (hc : store.Coherent) (capacity : UInt32) (config : RunConfig)
    (house : House) (request : Reservation) (turns : Nat) :
    booked capacity config house request store turns =
        booked capacity (config.limited none) house request store turns ∨
      ∃ limit, config.stepLimit = some limit ∧ limit < 4 ∧
        (booked capacity config house request store turns).run.outcome? =
          some (.error (.stepLimitExceeded limit)) ∧
        (booked capacity config house request store turns).run.handler = house := by
  cases hlimit : config.stepLimit with
  | none =>
    have he : config = config.limited none := by rw [RunConfig.limited, ← hlimit]
    exact .inl (congrArg (booked capacity · house request store turns) he)
  | some limit =>
    have he : config = config.limited (some limit) := by rw [RunConfig.limited, ← hlimit]
    have hs : (begun capacity house request store).Sound := Scene.sound_start _ hc _ house
    obtain ⟨-, ha, -⟩ | ⟨k, -, hl, hg, -⟩ :
        (_ ∧ booked capacity (config.limited (some limit)) house request store turns =
          booked capacity (config.limited none) house request store turns ∧ _) ∨ _ :=
      Scene.limited_cases hs rfl config limit turns
    · rw [← he] at ha
      exact .inl ha
    · rw [← he] at hg
      obtain ⟨hlt, hhouse⟩ := of_gaveUp hc hl hg
      have hs : (booked capacity config house request store turns).run.stage = _ := hg.stage
      exact .inr ⟨limit, rfl, hlt, by rw [Run.outcome?, hs], hhouse⟩

/-- After five turns it is decided what becomes of a request. -/
theorem verdict (hc : store.Coherent) (capacity : UInt32) (config : RunConfig)
    (hlen : house.reservations.length + 1 < UInt32.size) (request : Reservation) {turns : Nat}
    (ht : 5 ≤ turns) :
    Verdict capacity config house request (booked capacity config house request store turns).run := by
  obtain he | ⟨limit, hlimit, hlt, ho, hh⟩ := booked_cases hc capacity config house request turns
  · obtain ⟨n, rfl⟩ := Nat.exists_eq_add_of_le' ht
    have hd := Deciding.performed capacity house request (n + 4)
    rw [Nat.sub_eq_zero_of_le (Nat.le_add_left 4 n)] at hd
    exact he ▸ verdict_of_shows (shows_tryAccept hc (n + 4)) hd hlen
  · exact .stopped limit hlimit hlt ho hh

/-- At any moment of a booking the house is as it was, or the request fits and is entered. -/
theorem house_booked (hc : store.Coherent) (capacity : UInt32) (config : RunConfig) (house : House)
    (request : Reservation) (turns : Nat) :
    let after := (booked capacity config house request store turns).run.handler
    after = house ∨ house.Fits capacity request ∧ after = house.reserve request := by
  intro after
  obtain he | ⟨_, _, _, _, hh⟩ := booked_cases hc capacity config house request turns
  · cases turns with
    | zero => exact .inl rfl
    | succ n =>
      have hs : after = _ := (congrArg (·.run.handler) he).trans (shows_tryAccept hc n).handler
      rw [hs]
      exact (Deciding.performed capacity house request n).handler
  · exact .inl hh

/-! ### Several requests -/

/-- A request under some settings, and for how many turns its run is followed before it is dropped. -/
structure Attempt where
  request : Reservation
  config : RunConfig
  turns : Nat

def Attempt.stint (capacity : UInt32) (a : Attempt) : Stint Instruction Answer X where
  language := Sequential.language
  program := .described (tryAccept capacity a.request)
  config := a.config
  turns := List.replicate a.turns .own

/-- The house after attempts, one after the other. -/
def attempted (capacity : UInt32) (house : House) (store : Store Instruction Answer X)
    (attempts : List Attempt) : House :=
  (Stint.follow House.handler (house, store) (attempts.map (Attempt.stint capacity))).1

private theorem seatsOn_attempted (hc : store.Coherent)
    (hs : ∀ date, house.seatsOn date ≤ capacity.toNat) (attempts : List Attempt) (date : String) :
    (attempted capacity house store attempts).seatsOn date ≤ capacity.toNat := by
  induction attempts generalizing house store with
  | nil => exact hs date
  | cons a rest ih =>
    refine ih ((a.stint capacity).coherent_leave House.handler hc) fun date => ?_
    change (booked capacity a.config house a.request store a.turns).run.handler.seatsOn date ≤ _
    obtain he | ⟨hf, he⟩ := house_booked hc capacity a.config house a.request a.turns
    · rw [he]
      exact hs date
    · rw [he]
      exact hf.seatsOn_le hs date

/-- A request is accepted exactly where it fits. So no day is overbooked, however many requests there are
and whatever becomes of their runs. -/
theorem never_overbooks (capacity : UInt32) (house : House) (shared : X)
    (before : List (Deed Instruction Answer X)) :
    let store := before.foldl Deed.apply (Store.fresh shared)
    (house.reservations.length + 1 < UInt32.size → ∀ config request turns, 5 ≤ turns →
      Verdict capacity config house request
        (booked capacity config house request store turns).run) ∧
    ((∀ date, house.seatsOn date ≤ capacity.toNat) → ∀ attempts date,
      (attempted capacity house store attempts).seatsOn date ≤ capacity.toNat) := by
  intro store
  have hc : store.Coherent := (Store.Coherent.fresh shared).deeds before
  exact ⟨fun hlen config request _ ht => verdict hc capacity config hlen request ht,
    fun hs => seatsOn_attempted hc hs⟩

/-- Three guests ask for four of ten seats each; two are granted, since the house has given away two. -/
theorem demo_never_overbooked :
    let attempts := List.replicate 3 (Attempt.mk demo.request .default 5)
    let store : Store Instruction Answer Unit := .fresh ()
    demo.house.reservations.length + 1 < UInt32.size ∧
      (∀ date, demo.house.seatsOn date ≤ demo.capacity.toNat) ∧
      Verdict demo.capacity .default demo.house demo.request
        (booked demo.capacity .default demo.house demo.request store 5).run ∧
      (∀ date, (attempted demo.capacity demo.house store attempts).seatsOn date ≤ demo.capacity.toNat) ∧
      (attempted demo.capacity demo.house store attempts).seatsOn demo.date = 10 := by
  intro attempts store
  have hlen : demo.house.reservations.length + 1 < UInt32.size := by decide
  have hf : (House.mk demo.house.today []).Fits demo.capacity ⟨demo.date, "house", 2⟩ :=
    ⟨by decide +kernel, by decide⟩
  have hs : ∀ date, demo.house.seatsOn date ≤ demo.capacity.toNat :=
    hf.seatsOn_le fun _ => Nat.zero_le _
  have h := never_overbooks demo.capacity demo.house () []
  exact ⟨hlen, hs, h.1 hlen .default demo.request 5 (Nat.le_refl 5), h.2 hs attempts, by decide +kernel⟩

end Booking

end Trampoline
