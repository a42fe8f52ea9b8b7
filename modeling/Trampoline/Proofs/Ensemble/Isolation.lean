import Trampoline.Proofs.Dispatch.Withdrawal
import Trampoline.Proofs.Ensemble.Foreign
import Trampoline.Proofs.Ensemble.Solo
import Trampoline.Proofs.History.Turns
import Trampoline.Proofs.Nested.Opaque

/-!
Programs that run side by side do not get in each other's way, although their requests may be polled and
dropped by all of them: each handler is called for what its own program has requested, what one program
does to the requests of another is not felt by its own, and a program that keeps to itself runs as if it
were alone.
-/
namespace Trampoline

variable {ι I V X : Type}

namespace Cast

variable [DecidableEq ι] [InstructionSet I]

/-- Programs are isolated from one another, after turns of their runs in the order of a schedule. -/
structure Isolated (c : Cast ι I V X) (shared : X) (schedule : List ι) : Prop where
  /-- An instruction is dispatched by the run of the program that has requested it, and at most once. -/
  dispatched : ∀ i r, (i, r) ∈ (c.play shared schedule).requests →
    ∃ q, (c.play shared schedule).store.requests[r]? = some q ∧
      ((c.play shared schedule).calls q.issued.cell = [] ∨
        (c.play shared schedule).calls q.issued.cell = [(i, q.issued)])
  /-- Nothing else is dispatched. -/
  requested : ∀ i issued, (i, .called issued) ∈ (c.play shared schedule).history →
    ∃ r q, (i, r) ∈ (c.play shared schedule).requests ∧
      (c.play shared schedule).store.requests[r]? = some q ∧ q.issued = issued
  /-- At any moment of its turn a description may poll and drop a request of another. That makes no
  request for its own slot, takes none out, and leaves it as it is how they are answered and when. -/
  spared : ∀ i history store, ((c.play shared schedule).scene i).Amid history store →
    ∀ k r q next, store.requests[r]? = some q → q.slot ≠ k →
      next = (store.poll r).2 ∨ next = store.drop r →
      store.Untouched k next ∧ ∀ s v, store.view s = some v → v.request.slot = k →
        (next.poll s).1 = (store.poll s).1 ∧ (next.poll s).2.view s = (store.poll s).2.view s
  /-- A description that is suspended, and told to wait by requests of others only, is stuck exactly if there
  is nothing in its slot then, and goes on with an instruction exactly if the request is there. This is a
  request of its own that was in the slot before the resumption, as another description had polled it. -/
  foreign : ∀ i k s store rest, ((c.play shared schedule).scene i).ReliesOnOthers (c.language i)
      (c.config i) (c.handler i) k s store rest →
    let run := (c.play shared (schedule ++ [i])).run i
    let suspended := (((c.language i).resume s).run k store).2
    (run.outcome? = some (.error (.build .foreignSuspension)) ↔ ∀ r, ¬ suspended.Occupies k r) ∧
    (∀ r q, suspended.requests[r]? = some q →
      (run.stage = .reducing (.await q.issued (.resume k rest)) ↔ suspended.Occupies k r)) ∧
    ∀ r, suspended.Occupies k r → store.Occupies k r ∧
      ∃ j, j ≠ i ∧ (j, .issued k r) ∈ (c.play shared schedule).history
  /-- A program that keeps to itself runs as if it were alone. -/
  solo : ∀ i same alike shared',
    (c.language i).Opaque (fun r => (i, r) ∈ (c.play shared schedule).requests) same alike →
    same [] (c.start i) (c.start i) → alike [] shared shared' → c.Apart shared schedule alike i →
    ((c.play shared schedule).run i).outcome? = (c.solo shared' i (schedule.count i)).run.outcome? ∧
    ((c.play shared schedule).run i).stats = (c.solo shared' i (schedule.count i)).run.stats ∧
    ((c.play shared schedule).scene i).calls = (c.solo shared' i (schedule.count i)).calls ∧
    ((c.play shared schedule).run i).handler = (c.solo shared' i (schedule.count i)).run.handler

/-- Whatever programs there are, and in whatever order they take their turns. -/
theorem isolated (c : Cast ι I V X) (shared : X) (schedule : List ι) : c.Isolated shared schedule := by
  obtain ⟨slot, h⟩ := c.kept shared schedule
  constructor
  case dispatched => exact fun i r hr => c.calls_of_requested shared schedule hr
  case requested =>
    intro i issued hm
    obtain ⟨r, q, hr, hq, hi, _⟩ := h.requested_of_called hm
    exact ⟨r, q, hr, hq, hi⟩
  case spared =>
    rintro i history store ⟨hand, events, hand', _, _, hs⟩ k r q next hq hk hn
    have hc : store.Coherent := hs.coherent h.coherent
    have hr : ∀ p, store.requests[r]? = some p → p.dropped = false → p.slot ≠ k := by
      intro p hp _
      rwa [Option.some.inj (hp.symm.trans hq)]
    have hu : store.Untouched k next := by
      obtain rfl | rfl := hn
      · exact .poll hc hr
      · exact .drop hc hr
    exact ⟨hu, fun s v hv hs => hu.polls hc hv hs⟩
  case foreign =>
    rintro i k s store rest ⟨hr, hs, hn⟩
    have hsound : ((c.play shared schedule).scene i).Sound := h.sound i
    obtain ⟨hc, hk, ht⟩ := hr.slot hsound (h.described i)
    have hc' : (((c.language i).resume s).run k store).2.Coherent := hc.run hk _
    have hst := hr.stage (l := c.language i) hsound
    rw [← State.scene_turn] at hst
    rw [play_concat]
    refine ⟨?_, fun r q hq => ?_, fun r ho => ?_⟩
    · exact (Run.fails_iff_of_built hst _).trans ((c.language i).stuck_iff hs hc')
    · rw [← (c.language i).goes_on_iff hs hc' hq, ← Stage.built_eq_reducing_iff, ← hst]
      rfl
    · have ho' := Script.occupies_of_others hc hk hn ho
      obtain ⟨hi, hb⟩ := ht r ho'
      exact ⟨ho', c.issued_of_occupies schedule (h.opened hi) hb⟩
  case solo =>
    intro i same alike shared' hl hs hx ha
    have hm := mimics_solo ha hl hs hx (List.append_nil schedule).symm
    exact ⟨hm.stage.outcome?, hm.stats, hm.calls, hm.handler⟩

section Guests

open Booking

/-- Asks for the day and the reservations at once, whether the house is still empty on that day. -/
def enquiry : Nested Instruction Answer Bool :=
  .join [.perform (.isInFuture demo.request) fun answer => .pure answer.isYes,
    .perform (.read demo.date) fun answer => .pure answer.reservations.isEmpty]
    fun results => .pure (results.all fun result => result.toOption == some true)

/-- Two guests with a house each: one makes an enquiry, the other books a table. -/
def guests : Cast Bool Instruction Answer Unit where
  T
    | true => Bool
    | false => Option UInt32
  P
    | true => Nested Instruction Answer Bool
    | false => Sequential.Written Instruction Answer (Option UInt32)
  S
    | true => Nested.Resumable Instruction Answer Bool
    | false => Sequential.Resumable Instruction Answer (Option UInt32)
  H _ := House
  language
    | true => Nested.language
    | false => Sequential.language
  config _ := .default
  handler _ := House.handler
  program
    | true => enquiry
    | false => .described (tryAccept demo.capacity demo.request)
  start
    | true => .fresh enquiry
    | false => .fresh (tryAccept demo.capacity demo.request)
  described
    | true => rfl
    | false => rfl
  state _ := demo.house

/-- An order in which both come to an end. -/
def order : List Bool :=
  [false, true, true, false, false, true, false, true, true, false]

/-- Both guests come to the same end as alone. -/
theorem guests_isolated : guests.Isolated () order ∧
    ∀ i, ((guests.play () order).run i).outcome? = (guests.solo () i (order.count i)).run.outcome? ∧
      (guests.solo () i (order.count i)).run.outcome?.isSome := by
  have h : guests.Isolated () order := isolated guests () order
  have ht : ∀ i, ∀ touch ∈ (guests.play () order).touches,
      touch.1 = i ↔ (i, touch.2) ∈ (guests.play () order).requests := by
    decide +kernel
  have ha (i : Bool) : guests.Apart () order (fun _ _ _ => True) i :=
    ⟨fun j r hr => ht i (j, r) hr, fun _ _ _ _ _ _ _ _ => trivial⟩
  have he : ∀ i, (guests.solo () i (order.count i)).run.outcome?.isSome := by
    decide +kernel
  refine ⟨h, fun i => ⟨?_, he i⟩⟩
  cases i with
  | true => exact (h.solo true _ _ () (Nested.isOpaque _) (.fresh _) trivial (ha true)).1
  | false => exact (h.solo false _ _ () (Sequential.isOpaque _) (.fresh _) trivial (ha false)).1

end Guests

/-! ### A request that was lent -/

section Lending

open Booking (Instruction Answer House)

/-- Makes a request and lends it, and waits for another. Afterwards it waits for what was lent to it. -/
def lender : Language Instruction Answer (List Nat) Unit Unit (Option Nat) where
  form _ := .describe none
  resume
    | none => do
      let lent ← Script.request (.read "lent")
      Script.share [lent]
      let own ← Script.request (.read "own")
      let _ ← Script.poll own
      return .suspended (some own)
    | some own => do
      Script.drop own
      match ← Script.look with
      | [] => return .finished ()
      | borrowed :: rest =>
        Script.share rest
        let _ ← Script.poll borrowed
        return .suspended (some borrowed)
  owned := Option.toList

/-- Polls what was lent to it, lends a request in turn, and waits for another. -/
def borrower : Language Instruction Answer (List Nat) Unit Unit (Option Nat) where
  form _ := .describe none
  resume
    | none => do
      match ← Script.look with
      | [] => return .finished ()
      | borrowed :: rest =>
        let _ ← Script.poll borrowed
        let lent ← Script.request (.read "lent")
        Script.share (lent :: borrowed :: rest)
        let own ← Script.request (.read "own")
        let _ ← Script.poll own
        return .suspended (some own)
    | some own => do
      Script.drop own
      return .finished ()
  owned := Option.toList

def lending : Cast Bool Instruction Answer (List Nat) where
  T _ := Unit
  P _ := Unit
  S _ := Option Nat
  H _ := House
  language i := if i then borrower else lender
  config _ := .default
  handler _ := House.handler
  program _ := ()
  start _ := none
  described i := by cases i <;> rfl
  state _ := ⟨"", []⟩

/-- Where the lender is resumed, its first request is in its slot, as the borrower has polled it. It then
waits for nothing but a request of the borrower. -/
private theorem lender_relies :
    let store := (lending.play [] [false, true]).store.putCell 1 (.full (.found []))
    ((lending.play [] [false, true]).scene false).ReliesOnOthers (lending.language false)
      (lending.config false) (lending.handler false) 0 (some 1) store (some 2) := by
  intro store
  have he : (lender.resume (some 1)).happenings 0 store =
      [.dropped 1, .polled 2 none, .issued 1 2] := rfl
  have hq : ((lender.resume (some 1)).run 0 store).2.requests[2]? =
      some ⟨⟨.read "lent", 2⟩, 1, none, some 2, false⟩ := rfl
  refine ⟨.awaits 0 (some 1) ⟨.read "own", 1⟩ store rfl rfl ?_, rfl, fun r q hr hr' => ?_⟩
  · exact ⟨.found [], ⟨"", []⟩, .empty, [], .full (.found []), rfl, rfl, rfl⟩
  · change _ ∈ (lender.resume (some 1)).happenings 0 store at hr
    change ((lender.resume (some 1)).run 0 store).2.requests[r]? = some q at hr'
    obtain rfl : r = 2 := by simpa [he] using hr
    cases hq.symm.trans hr'
    exact Nat.one_ne_zero

/-- Not every description is stuck where it was told to wait by requests of others only. -/
theorem not_foreign_of_lent :
    ¬ ∀ (c : Cast Bool Instruction Answer (List Nat)) (shared : List Nat) (schedule : List Bool)
        (i : Bool) (k : Nat) (s : c.S i) (store : Store Instruction Answer (List Nat)) (rest : c.S i),
      ((c.play shared schedule).scene i).ReliesOnOthers (c.language i) (c.config i) (c.handler i)
        k s store rest →
      ((c.play shared (schedule ++ [i])).run i).outcome? = some (.error (.build .foreignSuspension)) := by
  intro h
  have hf := h lending [] [false, true] false 0 (some 1) _ (some 2) lender_relies
  have hn : ((lending.play [] ([false, true] ++ [false])).run false).outcome? = none := rfl
  rw [hn] at hf
  cases hf

end Lending

end Cast

end Trampoline
