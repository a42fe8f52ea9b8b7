import Trampoline.Proofs.History.Alone

/-!
Programs without descriptions, read directly: an instruction is handed to the handler, and its answer to
what follows. There are no nodes, cells or thunks in this reading, and no loop. The run of such a program
comes to exactly what the direct reading says, with the same calls of the handler.
-/
namespace Trampoline

variable {I V X T P S H : Type}

/-- What a direct reading comes to. -/
structure Outcome (I T H : Type) where
  result : Except RunError T
  /-- The instructions that were handed to the handler, in their order. -/
  calls : List I
  handler : H
  /-- Steps of the program's own. -/
  delays : Nat
  /-- Instructions that were answered. -/
  dispatches : Nat

namespace Outcome

/-- Nothing was called. -/
def ending (result : Except RunError T) (state : H) : Outcome I T H :=
  ⟨result, [], state, 0, 0⟩

/-- After a step of the program's own. -/
def delayed (o : Outcome I T H) : Outcome I T H :=
  { o with delays := o.delays + 1 }

/-- After an instruction that was answered. -/
def dispatched (i : I) (o : Outcome I T H) : Outcome I T H :=
  { o with calls := i :: o.calls, dispatches := o.dispatches + 1 }

end Outcome

namespace Language

variable [InstructionSet I]

/-- Reads a program directly. There is no outcome if the program needs more than the given fuel, or has
a description in it. -/
def direct (l : Language I V X T P S) (handler : Handler I V H) :
    Nat → P → H → Option (Outcome I T H)
  | 0, _, _ => none
  | fuel + 1, program, state =>
    match l.form program with
    | .pure value => some (.ending (.ok value) state)
    | .delay body => (l.direct handler fuel body state).map .delayed
    | .tryDelay (.ok body) => (l.direct handler fuel body state).map .delayed
    | .tryDelay (.error failure) =>
      some (Outcome.ending (.error (.build (.described failure))) state).delayed
    | .fail failure => some (Outcome.ending (.error (.build (.described failure))) state).delayed
    | .perform i next =>
      match handler.settle i fuel 0 state with
      | none => none
      | some (.error failure, state) =>
        some ⟨.error (.handler (InstructionSet.name i) failure), [i], state, 0, 0⟩
      | some (.ok value, state) =>
        (l.direct handler fuel (next value) state).map (.dispatched i)
    | .describe _ => none

end Language

namespace Scene

variable [InstructionSet I] {l : Language I V X T P S} {config : RunConfig} {handler : Handler I V H}
  {history : List (Happening I V)} {stats : RunStats} {state state' : H} {store : Store I V X}
  {o : Outcome I T H}

/-- The run alone comes to an outcome, which is counted from the present scene on. -/
def EndsAs (l : Language I V X T P S) (config : RunConfig) (handler : Handler I V H)
    (scene : Scene I V X T P S H) (o : Outcome I T H) : Prop :=
  ∃ last, scene.Leads l config handler last ∧
    last.run.stage = .ended o.result ∧ last.calls = scene.calls ++ o.calls ∧
    last.run.handler = o.handler ∧
    last.run.stats.delays = scene.run.stats.delays + o.delays ∧
    last.run.stats.dispatches = scene.run.stats.dispatches + o.dispatches

private theorem endsAs_ended (result : Except RunError T) :
    EndsAs l config handler ⟨history, ⟨.ended result, stats, state⟩, store⟩
      (.ending result state) :=
  ⟨_, ⟨0, rfl⟩, rfl, (List.append_nil _).symm, rfl, rfl, rfl⟩

/-- A step of the program's own in which nothing happens. -/
private theorem endsAs_delayed (hl : config.stepLimit = none) {next : Thunk V P S}
    (hf : l.forcing next store = [])
    (he : EndsAs l config handler
      ⟨history,
        ⟨.built (l.force next store).1, ⟨stats.steps + 1, stats.delays + 1, stats.dispatches⟩,
          state⟩,
        (l.force next store).2⟩ o) :
    EndsAs l config handler ⟨history, ⟨.reducing (.delay next), stats, state⟩, store⟩ o.delayed := by
  have h : Leads l config handler ⟨history, ⟨.reducing (.delay next), stats, state⟩, store⟩ _ :=
    leads_delay hl next
  rw [hf, List.append_nil] at h
  obtain ⟨last, hlast, hr, hc, hh, hd, hs⟩ := he
  refine ⟨last, h.trans hlast, hr, hc, hh, ?_, hs⟩
  rw [hd, Outcome.delayed]
  dsimp only
  omega

private theorem endsAs_refused (hl : config.stepLimit = none) (hh : handler.SparesCells) {i : I}
    {fuel : Nat} {failure : Failure}
    (h : handler.settle i fuel 0 state = some (.error failure, state')) (next : V → P) :
    EndsAs l config handler
      ⟨history, ⟨.reducing (.await (store.issue i).1 (.answer (store.issue i).1.cell next)), stats,
        state⟩, (store.issue i).2⟩
      ⟨.error (.handler (InstructionSet.name i) failure), [i], state', 0, 0⟩ := by
  refine ⟨_, leads_called hl hh _ (store.cellAt_issue_self i) h, rfl, ?_, rfl, rfl, rfl⟩
  simp [calls, settled, Language.discarding, Happening.call?, Store.instruction_issue]

/-- An answered instruction: its answer goes through its cell to the program that follows. -/
private theorem endsAs_dispatched (hl : config.stepLimit = none) (hh : handler.SparesCells) {i : I}
    {fuel : Nat} {value : V} (h : handler.settle i fuel 0 state = some (.ok value, state'))
    {next : V → P}
    (he : ∀ (history : List (Happening I V)) (stats : RunStats) (store : Store I V X),
      EndsAs l config handler
        ⟨history, ⟨.reducing (l.node (next value) store).1, stats, state'⟩,
          (l.node (next value) store).2⟩ o) :
    EndsAs l config handler
      ⟨history, ⟨.reducing (.await (store.issue i).1 (.answer (store.issue i).1.cell next)), stats,
        state⟩, (store.issue i).2⟩ (o.dispatched i) := by
  have hc := store.cellAt_issue_self i
  have hd : Leads l config handler
      ⟨history, ⟨.reducing (.await _ (.answer (store.issue i).1.cell next)), stats, state⟩,
        (store.issue i).2⟩ _ :=
    leads_called hl hh _ hc h
  simp only [settled, hc, Cell.set, l.force_answer (store.cell_issue_lt i), Stage.built] at hd
  obtain ⟨last, hlast, hr, hcalls, hstate, hdelays, hdispatches⟩ := he _ _ _
  refine ⟨last, hd.trans hlast, hr, ?_, hstate, hdelays, ?_⟩
  · rw [hcalls]
    simp [calls, Language.forcing, Happening.call?, Store.instruction_issue, Outcome.dispatched]
  · rw [hdispatches, Outcome.dispatched]
    dsimp only
    omega

theorem endsAs_direct (hl : config.stepLimit = none) (hh : handler.SparesCells) {fuel : Nat}
    {program : P} (ho : l.direct handler fuel program state = some o)
    (history : List (Happening I V)) (stats : RunStats) (store : Store I V X) :
    EndsAs l config handler
      ⟨history, ⟨.reducing (l.node program store).1, stats, state⟩, (l.node program store).2⟩ o := by
  induction fuel generalizing program state o history stats store with
  | zero => cases ho
  | succ fuel ih =>
    unfold Language.direct at ho
    unfold Language.node
    cases hf : l.form program with
    | pure value =>
      rw [hf] at ho
      cases ho
      exact ⟨_, .of_turn (turn_result value), rfl, (List.append_nil _).symm, rfl, rfl, rfl⟩
    | delay body =>
      rw [hf] at ho
      obtain ⟨o', ho', rfl⟩ := Option.map_eq_some_iff.mp ho
      exact endsAs_delayed hl rfl (ih ho' _ _ _)
    | tryDelay body =>
      rw [hf] at ho
      cases body with
      | ok body =>
        obtain ⟨o', ho', rfl⟩ := Option.map_eq_some_iff.mp ho
        exact endsAs_delayed hl rfl (ih ho' _ _ _)
      | error failure =>
        cases ho
        exact endsAs_delayed hl rfl (endsAs_ended _)
    | fail failure =>
      rw [hf] at ho
      cases ho
      exact endsAs_delayed hl rfl (endsAs_ended _)
    | perform i next =>
      rw [hf] at ho
      dsimp only at ho
      cases hs : handler.settle i fuel 0 state with
      | none =>
        rw [hs] at ho
        cases ho
      | some reply =>
        obtain ⟨failure | value, state'⟩ := reply
        · rw [hs] at ho
          cases ho
          exact endsAs_refused hl hh hs next
        · rw [hs] at ho
          obtain ⟨o', ho', rfl⟩ := Option.map_eq_some_iff.mp ho
          exact endsAs_dispatched hl hh hs (ih ho')
    | describe start =>
      rw [hf] at ho
      cases ho

/-- A program that has an outcome when it is read directly is run to that very outcome, whatever was in
the store before. From then on nothing happens any more. -/
theorem run_of_direct (hl : config.stepLimit = none) (hh : handler.SparesCells) {fuel : Nat}
    {program : P} {state : H} (ho : l.direct handler fuel program state = some o)
    (store : Store I V X) :
    ∃ n, ∀ m, n ≤ m →
      let last := (start l program state store).alone l config handler m
      last.run.stage = .ended o.result ∧ last.calls = o.calls ∧ last.run.handler = o.handler ∧
        last.run.stats.delays = o.delays ∧ last.run.stats.dispatches = o.dispatches := by
  obtain ⟨last, hs, hr, hc, hh, hd, hs'⟩ := endsAs_direct hl hh ho [] .zero store
  obtain ⟨n, hn⟩ := hs.forever hr
  refine ⟨n, fun m hm => ?_⟩
  have hm : (start l program state store).alone l config handler m = last := hn m hm
  rw [hm]
  exact ⟨hr, hc, hh, hd.trans (Nat.zero_add _), hs'.trans (Nat.zero_add _)⟩

open Booking in
/-- A booking that is accepted, read directly and run. -/
theorem run_of_booking :
    let house : House := { demo.house with reservations := demo.house.reservations ++ [demo.request] }
    ∃ n, ∀ m, n ≤ m →
      let last := (start Sequential.language (.direct (tryAccept demo.capacity demo.request))
        demo.house (Store.fresh ())).alone Sequential.language .default House.handler m
      last.run.stage = .ended (.ok (some 2)) ∧
        last.calls = [.isInFuture demo.request, .read demo.date, .create demo.request] ∧
        last.run.handler = house ∧ last.run.stats.delays = 0 ∧ last.run.stats.dispatches = 3 := by
  have ho : (Sequential.language : Language _ _ Unit _ _ _).direct House.handler 4
      (.direct (tryAccept demo.capacity demo.request)) demo.house =
        some ⟨.ok (some 2), [.isInFuture demo.request, .read demo.date, .create demo.request],
          ⟨demo.house.today, demo.house.reservations ++ [demo.request]⟩, 0, 3⟩ := by
    rfl
  exact run_of_direct rfl House.sparesCells ho (Store.fresh ())

end Scene

end Trampoline
