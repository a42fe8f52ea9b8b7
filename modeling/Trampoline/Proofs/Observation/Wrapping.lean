import Trampoline.Handler.Observed
import Trampoline.Proofs.Runs.Pauses

/-!
Handlers around handlers. A wrapper gives what the handler within gives, and keeps the state of that
handler within its own. Whatever runs against the wrapper does the same, turn by turn and poll by poll, as
it does against the handler within.
-/
namespace Trampoline

variable {I V X T N P S H H' : Type}

namespace Handler

/-- The outer handler gives what the inner one gives, and does to the inner state what the inner one
does. -/
structure Wraps (outer : Handler I V H') (inner : Handler I V H) (view : H' → H) : Prop where
  reply : ∀ i polls state cell,
    (outer.poll i polls state cell).reply = (inner.poll i polls (view state) cell).reply
  state : ∀ i polls state cell,
    view (outer.poll i polls state cell).state = (inner.poll i polls (view state) cell).state
  cell : ∀ i polls state cell,
    (outer.poll i polls state cell).cell = (inner.poll i polls (view state) cell).cell

theorem Wraps.refl (handler : Handler I V H) : handler.Wraps handler id :=
  ⟨fun _ _ _ _ => rfl, fun _ _ _ _ => rfl, fun _ _ _ _ => rfl⟩

theorem Wraps.trans {H'' : Type} {outermost : Handler I V H''} {outer : Handler I V H'}
    {inner : Handler I V H} {view : H' → H} {view' : H'' → H'} (h' : outermost.Wraps outer view')
    (h : outer.Wraps inner view) : outermost.Wraps inner (view ∘ view') where
  reply _ _ _ _ := (h'.reply ..).trans (h.reply ..)
  state _ _ _ _ := (congrArg view (h'.state ..)).trans (h.state ..)
  cell _ _ _ _ := (h'.cell ..).trans (h.cell ..)

section Layers

variable [InstructionSet I] (handler : Handler I V H)

theorem recorded_wraps : handler.recorded.Wraps handler Recorded.inner :=
  ⟨fun _ _ _ _ => rfl, fun _ _ _ _ => rfl, fun _ _ _ _ => rfl⟩

theorem logged_wraps : handler.logged.Wraps handler id :=
  ⟨fun _ _ _ _ => rfl, fun _ _ _ _ => rfl, fun _ _ _ _ => rfl⟩

/-- Any number of layers, in any order. -/
theorem layered_wraps (layers : List Layer) :
    (handler.layered layers).Wraps handler (Layered.inner layers) := by
  induction layers with
  | nil => exact .refl handler
  | cons layer layers ih =>
    cases layer with
    | logging => exact (handler.layered layers).logged_wraps.trans ih
    | recording => exact (handler.layered layers).recorded_wraps.trans ih

end Layers

end Handler

/-- A run, seen with less of the state of its handler. -/
def Run.seen (view : H' → H) (run : Run I T N H') : Run I T N H :=
  ⟨run.stage, run.stats, view run.handler⟩

@[simp]
theorem Run.outcome?_seen (view : H' → H) (run : Run I T N H') :
    (run.seen view).outcome? = run.outcome? :=
  rfl

/-- Two steps leave the same behind but for what is not seen of the handler, and for the reports. -/
structure Stepped.Shows (view : H' → H) (stepped : Stepped I V X T N H')
    (stepped' : Stepped I V X T N H) : Prop where
  run : stepped.run.seen view = stepped'.run
  store : stepped.store = stepped'.store
  suspended : stepped.suspended = stepped'.suspended

namespace Executor

variable (config : RunConfig) (unfolding : Unfolding I V X T N) {outer : Handler I V H'}
  {inner : Handler I V H} {view : H' → H} {stats : RunStats} {state : H'}

private theorem shows_proceed (report report' : BuildError → Event) (before before' : List Event)
    (built : Except BuildError (Node I T N) × Store I V X) :
    Stepped.Shows view
      ((⟨config, unfolding, outer⟩ : Executor I V X T N H').proceed report stats state before built)
      ((⟨config, unfolding, inner⟩ : Executor I V X T N H).proceed report' stats (view state) before'
        built) := by
  obtain ⟨_ | _, _⟩ := built <;> exact ⟨rfl, rfl, rfl⟩

variable [InstructionSet I]

private theorem shows_pollHandler (hw : outer.Wraps inner view) (issued : Issued I) (next : N)
    (polls : Nat) (store : Store I V X) (before before' : List Event) :
    Stepped.Shows view
      ((⟨config, unfolding, outer⟩ : Executor I V X T N H').pollHandler issued next polls stats state
        store before)
      ((⟨config, unfolding, inner⟩ : Executor I V X T N H).pollHandler issued next polls stats
        (view state) store before') := by
  have hr := hw.reply issued.instruction polls state (store.cellAt issued.cell)
  have hs := hw.state issued.instruction polls state (store.cellAt issued.cell)
  have hc := hw.cell issued.instruction polls state (store.cellAt issued.cell)
  simp only [pollHandler, Handler.dispatch]
  generalize outer.poll issued.instruction polls state (store.cellAt issued.cell) = polled at *
  generalize inner.poll issued.instruction polls (view state) (store.cellAt issued.cell) = polled'
    at *
  obtain ⟨reply, state, cell, events⟩ := polled
  obtain ⟨reply', state', cell', events'⟩ := polled'
  obtain rfl : reply = reply' := hr
  obtain rfl : view state = state' := hs
  obtain rfl : cell = cell' := hc
  cases reply with
  | pending => exact ⟨rfl, rfl, rfl⟩
  | refused failure => exact ⟨rfl, rfl, rfl⟩
  | answered value =>
    simp only
    cases cell.set value with
    | error e => exact ⟨rfl, rfl, rfl⟩
    | ok cell => exact shows_proceed _ _ _ _ _ _ _

/-- A step against the outer handler is a step against the inner one. -/
theorem shows_step (hw : outer.Wraps inner view) (run : Run I T N H') (store : Store I V X) :
    Stepped.Shows view
      ((⟨config, unfolding, outer⟩ : Executor I V X T N H').step run store)
      ((⟨config, unfolding, inner⟩ : Executor I V X T N H).step (run.seen view) store) := by
  obtain ⟨stage, stats, state⟩ := run
  cases stage with
  | ended outcome => exact ⟨rfl, rfl, rfl⟩
  | dispatching issued next polls => exact shows_pollHandler config unfolding hw issued next polls store _ _
  | reducing node =>
    cases node with
    | result value => exact ⟨rfl, rfl, rfl⟩
    | delay next =>
      simp only [Run.seen, step, reduce]
      cases config.exceeded? (stats.steps + 1) with
      | some limit => exact ⟨rfl, rfl, rfl⟩
      | none => exact shows_proceed _ _ _ _ _ _ _
    | await issued next =>
      simp only [Run.seen, step, reduce]
      cases config.exceeded? (stats.steps + 1) with
      | some limit => exact ⟨rfl, rfl, rfl⟩
      | none => exact shows_pollHandler config unfolding hw issued next 0 store _ _

/-- A poll against the outer handler is a poll against the inner one, whatever is made of the reports. -/
theorem seen_poll (hw : outer.Wraps inner view) {R R' : Type} (report : R → Event → R)
    (report' : R' → Event → R') (fuel : Nat) (run : Run I T N H') (store : Store I V X)
    (reported : R) (reported' : R') :
    let once := (⟨config, unfolding, outer⟩ : Executor I V X T N H').poll report fuel run store reported
    ∃ told, (⟨config, unfolding, inner⟩ : Executor I V X T N H).poll report' fuel (run.seen view) store
      reported' = (once.1.seen view, once.2.1, told) := by
  induction fuel generalizing run store reported reported' with
  | zero => exact ⟨reported', rfl⟩
  | succ fuel ih =>
    obtain ⟨hr, hs, hp⟩ := shows_step config unfolding hw run store
    simp only [poll, ← hp, ← hs, ← hr, Run.outcome?_seen]
    split
    · exact ⟨_, rfl⟩
    · exact ih _ _ _ _

theorem seen_polled (hw : outer.Wraps inner view) {R R' : Type} (report : R → Event → R)
    (report' : R' → Event → R') (fuel n : Nat) (run : Run I T N H') (store : Store I V X)
    (reported : R) (reported' : R') :
    let last := (⟨config, unfolding, outer⟩ : Executor I V X T N H').polled report fuel n
      (run, store, reported)
    ∃ told, (⟨config, unfolding, inner⟩ : Executor I V X T N H).polled report' fuel n
      (run.seen view, store, reported') = (last.1.seen view, last.2.1, told) := by
  induction n generalizing run store reported reported' with
  | zero => exact ⟨reported', rfl⟩
  | succ n ih =>
    obtain ⟨told, h⟩ := seen_poll config unfolding hw report report' fuel run
      store reported reported'
    rw [polled, polled, h]
    exact ih _ _ _ told

end Executor

/-- What happens in a poll of the outer handler happens in a poll of the inner one. -/
theorem Language.dispatching_seen {outer : Handler I V H'} {inner : Handler I V H} {view : H' → H}
    (hw : outer.Wraps inner view) (l : Language I V X T P S) (issued : Issued I) (next : Thunk V P S)
    (polls : Nat) (state : H') (store : Store I V X) :
    l.dispatching outer issued next polls state store =
      l.dispatching inner issued next polls (view state) store := by
  simp only [dispatching, hw.reply, hw.cell]

namespace Scene

/-- A scene, seen with less of the state of its handler. -/
def seen (view : H' → H) (scene : Scene I V X T P S H') : Scene I V X T P S H :=
  ⟨scene.history, scene.run.seen view, scene.store⟩

variable [InstructionSet I] {l : Language I V X T P S} {config : RunConfig} {outer : Handler I V H'}
  {inner : Handler I V H} {view : H' → H}

theorem seen_turn (hw : outer.Wraps inner view) (scene : Scene I V X T P S H')
    (turn : Turn I V X) :
    (scene.turn l config outer turn).seen view = (scene.seen view).turn l config inner turn := by
  cases turn with
  | other deed => rfl
  | own =>
    obtain ⟨hr, hs, -⟩ := Executor.shows_step config l.unfolding hw scene.run scene.store
    have hh : l.stepping config outer scene.run scene.store =
        l.stepping config inner (scene.run.seen view) scene.store := by
      simp only [Language.stepping, Language.dispatching_seen hw, Run.seen]
    simp only [Scene.seen, Scene.turn, Language.executor, hr, hs, hh]

/-- Whatever the run and others do, it comes to the same against the inner handler. -/
theorem seen_play (hw : outer.Wraps inner view) (scene : Scene I V X T P S H')
    (turns : List (Turn I V X)) :
    (scene.play l config outer turns).seen view = (scene.seen view).play l config inner turns := by
  induction turns generalizing scene with
  | nil => rfl
  | cons turn turns ih =>
    rw [play, List.foldl_cons, play, List.foldl_cons, ← seen_turn hw]
    exact ih _

end Scene

end Trampoline
