import Trampoline.Booking.Demo
import Trampoline.Proofs.History.Basic
import Trampoline.Proofs.Store.Fields

/-!
What a single turn of a run does, for each place where the run may stand. Handlers here leave the cells
of their instructions alone.
-/
namespace Trampoline

variable {I V X T N P S H : Type}

/-- A handler that leaves the cells of its instructions as they are. -/
def Handler.SparesCells (handler : Handler I V H) : Prop :=
  ∀ instruction polls state cell, (handler.poll instruction polls state cell).cell = cell

namespace Booking

/-- The house of bookings is such a handler. -/
theorem House.sparesCells : House.handler.SparesCells := by
  intro i polls house cell
  simp only [House.handler]
  split <;> rfl

/-- Four seats at a house that grants up to ten. -/
def demo : Demo :=
  ⟨"2026-05-01", 4, 10⟩

end Booking

/-- Where a run stands once a thunk was forced. -/
def Stage.built : Except BuildError (Node I T N) → Stage I T N
  | .ok node => .reducing node
  | .error e => .ended (.error (.build e))

namespace Scene

variable [InstructionSet I]

/-- What a call leaves behind that is over: a failed run, or what comes of the thunk when the answer
is in the cell. -/
def settled (l : Language I V X T P S) (history : List (Happening I V)) (issued : Issued I)
    (next : Thunk V P S) (stats : RunStats) (store : Store I V X) :
    Except Failure V → H → Scene I V X T P S H
  | .error failure, state =>
    ⟨history ++ .refused issued failure :: l.discarding next store,
      ⟨.ended (.error (.handler (InstructionSet.name issued.instruction) failure)), stats, state⟩,
      l.discard next store⟩
  | .ok value, state =>
    match (store.cellAt issued.cell).set value with
    | .ok cell =>
      let filled := store.putCell issued.cell cell
      ⟨history ++ .answered issued value :: l.forcing next filled,
        ⟨.built (l.force next filled).1, { stats with dispatches := stats.dispatches + 1 }, state⟩,
        (l.force next filled).2⟩
    | .error e =>
      ⟨history ++ .answered issued value :: l.discarding next store,
        ⟨.ended (.error (.cell (InstructionSet.name issued.instruction) e)), stats, state⟩,
        l.discard next store⟩

variable {l : Language I V X T P S} {config : RunConfig} {handler : Handler I V H}
  {history : List (Happening I V)} {stats : RunStats} {state : H} {store : Store I V X}

theorem turn_ended (outcome : Except RunError T) :
    turn l config handler ⟨history, ⟨.ended outcome, stats, state⟩, store⟩ .own =
      ⟨history, ⟨.ended outcome, stats, state⟩, store⟩ := by
  simp only [turn, Language.stepping, List.append_nil]
  rfl

theorem turn_result (value : T) :
    turn l config handler ⟨history, ⟨.reducing (.result value), stats, state⟩, store⟩ .own =
      ⟨history, ⟨.ended (.ok value), { stats with steps := stats.steps + 1 }, state⟩, store⟩ := by
  simp only [turn, Language.stepping, List.append_nil]
  rfl

theorem turn_delay (he : config.exceeded? (stats.steps + 1) = none) (next : Thunk V P S) :
    turn l config handler ⟨history, ⟨.reducing (.delay next), stats, state⟩, store⟩ .own =
      ⟨history ++ l.forcing next store,
        ⟨.built (l.force next store).1, ⟨stats.steps + 1, stats.delays + 1, stats.dispatches⟩,
          state⟩,
        (l.force next store).2⟩ := by
  simp only [turn, Language.stepping, Language.executor, Executor.step, Executor.reduce, he,
    Executor.proceed, Language.unfolding]
  rcases l.force next store with ⟨_ | _, _⟩ <;> rfl

/-- Looking at an instruction is the first poll of its call. -/
theorem turn_await (he : config.exceeded? (stats.steps + 1) = none) (issued : Issued I)
    (next : Thunk V P S) :
    turn l config handler ⟨history, ⟨.reducing (.await issued next), stats, state⟩, store⟩ .own =
      turn l config handler
        ⟨history ++ [.called issued],
          ⟨.dispatching issued next 0, { stats with steps := stats.steps + 1 }, state⟩, store⟩
        .own := by
  simp only [turn, Language.stepping, he, Language.executor, Executor.step, Executor.reduce,
    List.append_assoc, List.singleton_append]
  simp only [Executor.pollHandler]
  split
  · rfl
  · rfl
  · simp only [Executor.proceed]
    split <;> rfl

/-- Where the limit strikes, the thunk behind the node is thrown away, and nothing else is done. -/
theorem turn_exceeded {limit : Nat} (he : config.exceeded? (stats.steps + 1) = some limit)
    {node : Node I T (Thunk V P S)} {next : Thunk V P S}
    (hn : node = .delay next ∨ ∃ issued, node = .await issued next) :
    turn l config handler ⟨history, ⟨.reducing node, stats, state⟩, store⟩ .own =
      ⟨history ++ l.discarding next store,
        ⟨.ended (.error (.stepLimitExceeded limit)), { stats with steps := stats.steps + 1 }, state⟩,
        l.discard next store⟩ := by
  obtain rfl | ⟨issued, rfl⟩ := hn <;>
    simp only [turn, Language.stepping, he, Language.executor, Executor.step, Executor.reduce,
      Executor.giveUp, Language.unfolding]

/-- One more poll of a call. -/
theorem turn_dispatching (hh : handler.SparesCells) (issued : Issued I) (next : Thunk V P S)
    (polls : Nat) :
    turn l config handler ⟨history, ⟨.dispatching issued next polls, stats, state⟩, store⟩ .own =
      match handler.poll issued.instruction polls state (store.cellAt issued.cell) with
      | ⟨.pending, state, _, _⟩ =>
        ⟨history, ⟨.dispatching issued next (polls + 1), stats, state⟩, store⟩
      | ⟨.refused failure, state, _, _⟩ =>
        settled l history issued next stats store (.error failure) state
      | ⟨.answered value, state, _, _⟩ =>
        settled l history issued next stats store (.ok value) state := by
  have hs := hh issued.instruction polls state (store.cellAt issued.cell)
  have hp := store.putCell_cellAt issued.cell
  simp only [turn, Language.stepping, Language.dispatching, Language.executor, Executor.step,
    Executor.pollHandler, Handler.dispatch]
  generalize handler.poll issued.instruction polls state (store.cellAt issued.cell) = polled at hs ⊢
  obtain ⟨reply, state, cell, events⟩ := polled
  obtain rfl : cell = store.cellAt issued.cell := hs
  cases reply with
  | pending => simp only [hp, List.append_nil]
  | refused failure => simp only [hp, Language.unfolding, settled]
  | answered value =>
    simp only [settled]
    cases (store.cellAt issued.cell).set value with
    | error e => simp only [hp, Language.unfolding]
    | ok cell =>
      simp only [Executor.proceed, Language.unfolding]
      rcases l.force next (store.putCell issued.cell cell) with ⟨_ | _, _⟩ <;> rfl

end Scene

end Trampoline
