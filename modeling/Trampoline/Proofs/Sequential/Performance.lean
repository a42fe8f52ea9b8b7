import Trampoline.Proofs.Runs.Reductions
import Trampoline.Sequential

/-!
Sequential computations that are performed against a handler, one instruction after the other. There are
no nodes, slots or requests in a performance, and no store. A program follows a computation if each of its
nodes does what the computation says next; its run then keeps step with the performance.
-/
namespace Trampoline

variable {I V X T P S H : Type}

namespace Sequential

/-- Where a performance stands. -/
inductive Point (I V T : Type) where
  | before (rest : Sequential I V T)
  /-- The handler was polled so many times for this instruction and is not done with it. The cell is
  what it has made of an empty one. -/
  | calling (instruction : I) (polls : Nat) (cell : Cell V) (next : V → Sequential I V T)
  | ended (outcome : Except RunError T)

/-- A computation that is being performed. -/
structure Performance (I V T H : Type) where
  point : Point I V T
  handler : H
  dealings : List (Dealing I V)
  /-- How many instructions were answered. -/
  answers : Nat

namespace Performance

variable [InstructionSet I]

/-- Polls the handler for an instruction. The answer goes to the rest of the computation, unless the
handler has put something into the cell by itself. -/
def poll (handler : Handler I V H) (i : I) (polls : Nat) (cell : Cell V)
    (next : V → Sequential I V T) (state : H) (dealings : List (Dealing I V)) (answers : Nat) :
    Performance I V T H :=
  match handler.poll i polls state cell with
  | ⟨.pending, state, cell, _⟩ => ⟨.calling i (polls + 1) cell next, state, dealings, answers⟩
  | ⟨.refused failure, state, _, _⟩ =>
    ⟨.ended (.error (.handler (InstructionSet.name i) failure)), state,
      dealings ++ [.refusal i failure], answers⟩
  | ⟨.answered value, state, cell, _⟩ =>
    match cell.set value with
    | .ok _ => ⟨.before (next value), state, dealings ++ [.answer i value], answers + 1⟩
    | .error e =>
      ⟨.ended (.error (.cell (InstructionSet.name i) e)), state, dealings ++ [.answer i value],
        answers⟩

/-- Does the next thing in a performance. -/
def advance (handler : Handler I V H) : Performance I V T H → Performance I V T H
  | ⟨.before (.pure value), state, dealings, answers⟩ =>
    ⟨.ended (.ok value), state, dealings, answers⟩
  | ⟨.before (.fail failure), state, dealings, answers⟩ =>
    ⟨.ended (.error (.build (.described failure))), state, dealings, answers⟩
  | ⟨.before (.perform i next), state, dealings, answers⟩ =>
    poll handler i 0 .empty next state (dealings ++ [.call i]) answers
  | ⟨.calling i polls cell next, state, dealings, answers⟩ =>
    poll handler i polls cell next state dealings answers
  | ⟨.ended outcome, state, dealings, answers⟩ => ⟨.ended outcome, state, dealings, answers⟩

end Performance

/-- The first so many moments of a performance. -/
def performed [InstructionSet I] (handler : Handler I V H) (c : Sequential I V T) (state : H) :
    Nat → Performance I V T H
  | 0 => ⟨.before c, state, [], 0⟩
  | n + 1 => (c.performed handler state n).advance handler

variable [InstructionSet I] (handler : Handler I V H)

/-- A performance never ends because something waits for no instruction. -/
theorem Performance.ne_foreign_advance {p : Performance I V T H} {outcome : Except RunError T}
    (h : ∀ outcome, p.point = .ended outcome → outcome ≠ .error (.build .foreignSuspension))
    (ho : (p.advance handler).point = .ended outcome) :
    outcome ≠ .error (.build .foreignSuspension) := by
  have polled (i : I) (polls : Nat) (cell : Cell V) (next : V → Sequential I V T) (state : H)
      (dealings : List (Dealing I V)) (answers : Nat)
      (ho : (poll handler i polls cell next state dealings answers).point = .ended outcome) :
      outcome ≠ .error (.build .foreignSuspension) := by
    rw [poll] at ho
    split at ho
    · cases ho
    · cases ho
      nofun
    · split at ho <;> cases ho
      nofun
  obtain ⟨point, state, dealings, answers⟩ := p
  cases point with
  | ended _ => exact h outcome ho
  | calling i polls cell next => exact polled _ _ _ _ _ _ _ ho
  | before c =>
    cases c with
    | pure value => cases ho; nofun
    | fail failure => cases ho; nofun
    | perform i next => exact polled _ _ _ _ _ _ _ ho

theorem ne_foreign_of_performed {c : Sequential I V T} {state : H} {n : Nat}
    {outcome : Except RunError T} (ho : (c.performed handler state n).point = .ended outcome) :
    outcome ≠ .error (.build .foreignSuspension) := by
  induction n generalizing outcome with
  | zero => cases ho
  | succ n ih => exact Performance.ne_foreign_advance handler (fun _ => ih) ho

end Sequential

/-- No request was answered with an error of its cell. -/
def Happening.Untroubled (history : List (Happening I V)) : Prop :=
  ∀ r e, .polled r (some (.error e)) ∉ history

theorem Happening.untroubled_append {history events : List (Happening I V)} :
    Untroubled (history ++ events) ↔ Untroubled history ∧ Untroubled events := by
  simp only [Untroubled, List.mem_append, not_or, forall_and]

open Happening

theorem Store.untroubled_dropping (store : Store I V X) (r : Nat) :
    Untroubled (store.dropping r) := by
  intro s e h
  rw [dropping] at h
  split at h
  · simp at h
  · cases h

theorem Store.untroubled_droppings (store : Store I V X) (rs : List Nat) :
    Untroubled (store.droppings rs) := by
  induction rs generalizing store with
  | nil => exact fun _ _ => List.not_mem_nil
  | cons r rest ih => exact untroubled_append.mpr ⟨store.untroubled_dropping r, ih _⟩

namespace Language

/-- A thunk that is thrown away polls nothing. -/
theorem untroubled_discarding (l : Language I V X T P S) (thunk : Thunk V P S)
    (store : Store I V X) : Untroubled (l.discarding thunk store) := by
  cases thunk with
  | resume slot rest => exact store.untroubled_droppings _
  | build body => exact fun _ _ => List.not_mem_nil
  | fail failure => exact fun _ _ => List.not_mem_nil
  | answer cell next => exact fun _ _ => List.not_mem_nil
  | describe start => exact fun _ _ => List.not_mem_nil

/-- What was built follows a computation: it is the value or failure that the computation ends with, or
the node of its first instruction, and the thunk behind that node follows the rest of the computation
whatever the answer is. -/
def Follows (l : Language I V X T P S) :
    Sequential I V T → Except BuildError (Node I T (Thunk V P S)) × Store I V X → Prop
  | .pure value, built => built.1 = .ok (.result value)
  | .fail failure, built =>
    built.1 = .error (.described failure) ∨ built.1 = .ok (.delay (.fail failure))
  | .perform i next, built => ∃ issued thunk,
    built.1 = .ok (.await issued thunk) ∧ issued.instruction = i ∧
      issued.cell < built.2.cells.size ∧ built.2.cellAt issued.cell = .empty ∧
      ∀ value, Untroubled (l.forcing thunk (built.2.putCell issued.cell (.full value))) ∧
        l.Follows (next value) (l.force thunk (built.2.putCell issued.cell (.full value)))

end Language

namespace Scene

open Trampoline.Sequential

/-- A run shows a performance: what it has done so far and where it stands agree. Until the end its steps
are the instructions so far and `base` more, which are steps of the program's own. -/
structure Shows (l : Language I V X T P S) (base : Nat) (scene : Scene I V X T P S H)
    (p : Performance I V T H) : Prop where
  dealings : scene.dealings = p.dealings
  handler : scene.run.handler = p.handler
  dispatches : scene.run.stats.dispatches = p.answers
  untroubled : Untroubled scene.history
  point : match p.point with
    | .before c => (∃ built, scene.run.stage = .built built ∧ l.Follows c (built, scene.store)) ∧
      scene.run.stats.delays = base ∧ scene.run.stats.steps = base + p.answers
    | .calling i polls cell next => (∃ issued thunk,
        scene.run.stage = .dispatching issued thunk polls ∧ issued.instruction = i ∧
        issued.cell < scene.store.cells.size ∧ scene.store.cellAt issued.cell = cell ∧
        ∀ value, Untroubled (l.forcing thunk (scene.store.putCell issued.cell (.full value))) ∧
          l.Follows (next value) (l.force thunk (scene.store.putCell issued.cell (.full value)))) ∧
      scene.run.stats.delays = base ∧ scene.run.stats.steps = base + p.answers + 1
    | .ended outcome => scene.run.stage = .ended outcome ∧ ∀ value, outcome = .ok value →
      scene.run.stats.delays = base ∧ scene.run.stats.steps = base + p.answers + 1

variable [InstructionSet I] {l : Language I V X T P S} {config : RunConfig}
  {handler : Handler I V H} {history : List (Happening I V)} {stats : RunStats} {state : H}
  {store : Store I V X} {scene : Scene I V X T P S H} {p : Performance I V T H} {base : Nat}

private theorem shows_poll {issued : Issued I} {thunk : Thunk V P S} {polls answers : Nat}
    {next : V → Sequential I V T} {dealings : List (Dealing I V)}
    (hd : history.filterMap dealing? = dealings) (hn : stats.dispatches = answers)
    (hu : Untroubled history) (hb : issued.cell < store.cells.size)
    (hf : ∀ value, Untroubled (l.forcing thunk (store.putCell issued.cell (.full value))) ∧
      l.Follows (next value) (l.force thunk (store.putCell issued.cell (.full value))))
    (hs : stats.delays = base ∧ stats.steps = base + answers + 1) :
    (turn l config handler ⟨history, ⟨.dispatching issued thunk polls, stats, state⟩, store⟩
      .own).Shows l base
      (.poll handler issued.instruction polls (store.cellAt issued.cell) next state dealings answers) := by
  rw [turn_polled hb, Performance.poll]
  generalize handler.poll issued.instruction polls state (store.cellAt issued.cell) = polled
  obtain ⟨reply, state, cell, events⟩ := polled
  cases reply with
  | pending =>
    refine ⟨hd, rfl, hn, hu, ⟨issued, thunk, rfl, rfl, ?_, Store.cellAt_putCell_self cell hb, ?_⟩, hs⟩
    · simpa [Store.putCell] using hb
    · simpa only [Store.putCell_putCell] using hf
  | refused failure =>
    refine ⟨?_, rfl, hn, ?_, rfl, fun _ h => by cases h⟩
    · simp only [settled, Scene.dealings, List.filterMap_append, hd, List.filterMap_cons, dealing?,
        l.dealings_discarding]
    · dsimp only [settled]
      rw [List.append_cons, untroubled_append, untroubled_append]
      exact ⟨⟨hu, by simp [Untroubled]⟩, l.untroubled_discarding _ _⟩
  | answered value =>
    simp only [settled, Store.cellAt_putCell_self cell hb, Store.putCell_putCell]
    cases he : cell.set value with
    | error e =>
      refine ⟨?_, rfl, hn, ?_, rfl, fun _ h => by cases h⟩
      · simp only [Scene.dealings, List.filterMap_append, hd, List.filterMap_cons, dealing?,
          l.dealings_discarding]
      · dsimp only
        rw [List.append_cons, untroubled_append, untroubled_append]
        exact ⟨⟨hu, by simp [Untroubled]⟩, l.untroubled_discarding _ _⟩
    | ok filled =>
      obtain rfl : filled = .full value := by
        cases cell <;> cases he
        rfl
      obtain ⟨hq, hf⟩ := hf value
      refine ⟨?_, rfl, congrArg (· + 1) hn, ?_, ⟨_, rfl, hf⟩, hs⟩
      · simp only [Scene.dealings, List.filterMap_append, hd, List.filterMap_cons, dealing?,
          l.dealings_forcing]
      · dsimp only
        rw [List.append_cons, untroubled_append, untroubled_append]
        exact ⟨⟨hu, by simp [Untroubled]⟩, hq⟩

/-- One turn of the run and one moment of the performance. -/
theorem Shows.advance (h : scene.Shows l base p) :
    (scene.turn l (config.limited none) handler .own).Shows l base (p.advance handler) := by
  obtain ⟨point, state, dealings, answers⟩ := p
  obtain ⟨history, ⟨stage, stats, state'⟩, store⟩ := scene
  obtain ⟨hd, rfl, hn, hu, hp⟩ := h
  cases point with
  | ended outcome =>
    obtain ⟨rfl, hs⟩ := hp
    rw [turn_ended]
    exact ⟨hd, rfl, hn, hu, rfl, hs⟩
  | calling i polls cell next =>
    obtain ⟨⟨issued, thunk, rfl, rfl, hb, rfl, hf⟩, hs⟩ := hp
    exact shows_poll hd hn hu hb hf hs
  | before c =>
    obtain ⟨⟨built, rfl, hf⟩, hdelays, hsteps⟩ := hp
    cases c with
    | pure value =>
      obtain rfl := hf
      change Shows l base (turn l _ _ ⟨_, ⟨.reducing (.result value), _, _⟩, _⟩ .own) _
      rw [turn_result]
      exact ⟨hd, rfl, hn, hu, rfl, fun _ _ => ⟨hdelays, congrArg (· + 1) hsteps⟩⟩
    | fail failure =>
      obtain rfl | rfl := hf
      · change Shows l base (turn l _ _ ⟨_, ⟨.ended _, _, _⟩, _⟩ .own) _
        rw [turn_ended]
        exact ⟨hd, rfl, hn, hu, rfl, nofun⟩
      · change Shows l base (turn l _ _ ⟨_, ⟨.reducing (.delay (.fail failure)), _, _⟩, _⟩ .own) _
        rw [turn_delay rfl]
        refine ⟨?_, rfl, hn, ?_, rfl, nofun⟩
        · exact (congrArg _ (List.append_nil history)).trans hd
        · exact (List.append_nil history).symm ▸ hu
    | perform i next =>
      obtain ⟨issued, thunk, rfl, rfl, hb, hc, hf⟩ := hf
      change Shows l base (turn l _ _ ⟨_, ⟨.reducing (.await issued thunk), _, _⟩, _⟩ .own) _
      rw [turn_await rfl, Performance.advance, ← hc]
      refine shows_poll ?_ hn ?_ hb hf ⟨hdelays, congrArg (· + 1) hsteps⟩
      · rw [List.filterMap_append]
        exact congrArg (· ++ [.call issued.instruction]) hd
      · exact untroubled_append.mpr ⟨hu, by simp [Untroubled]⟩

theorem Shows.performed {c : Sequential I V T}
    (h : scene.Shows l base (c.performed handler state 0)) (n : Nat) :
    (scene.alone l (config.limited none) handler n).Shows l base (c.performed handler state n) := by
  induction n with
  | zero => exact h
  | succ n ih =>
    rw [alone_succ]
    exact ih.advance

omit [InstructionSet I] in
/-- Where the performance is over, so is the run. -/
theorem Shows.outcome? {outcome : Except RunError T} (h : scene.Shows l base p)
    (hp : p.point = .ended outcome) : scene.run.outcome? = some outcome := by
  have hs := h.point
  rw [hp] at hs
  rw [Run.outcome?, hs.1]

omit [InstructionSet I] in
/-- In the end there was one step for each instruction, one for the value, and the program's own. -/
theorem Shows.stats_of_ended {value : T} (h : scene.Shows l base p) (hp : p.point = .ended (.ok value)) :
    scene.run.stats.dispatches = p.answers ∧ scene.run.stats.delays = base ∧
      scene.run.stats.steps = base + p.answers + 1 := by
  have hs := h.point
  rw [hp] at hs
  exact ⟨h.dispatches, hs.2 value rfl⟩

/-- Where the run is over, so is the performance, if not before its next moment then after it. -/
theorem Shows.ended_of_outcome? {outcome : Except RunError T} (h : scene.Shows l base p)
    (ho : scene.run.outcome? = some outcome) : (p.advance handler).point = .ended outcome := by
  obtain ⟨point, state, dealings, answers⟩ := p
  have hp := h.point
  cases point with
  | ended outcome' =>
    rw [h.outcome? rfl] at ho
    cases ho
    rfl
  | calling i polls cell next =>
    obtain ⟨⟨issued, thunk, he, _⟩, _⟩ := hp
    rw [Run.outcome?, he] at ho
    cases ho
  | before c =>
    obtain ⟨⟨built, he, hf⟩, _⟩ := hp
    rw [Run.outcome?, he] at ho
    cases c with
    | pure value =>
      obtain rfl := hf
      cases ho
    | fail failure =>
      obtain rfl | rfl := hf
      · cases ho
        rfl
      · cases ho
    | perform i next =>
      obtain ⟨issued, thunk, rfl, _⟩ := hf
      cases ho

/-- A program whose first node follows a computation. -/
theorem shows_performed {c : Sequential I V T} {program : P}
    (hf : l.Follows c (.ok (l.node program store).1, (l.node program store).2)) (state : H) (n : Nat) :
    ((start l program state store).alone l (config.limited none) handler n).Shows l 0
      (c.performed handler state n) :=
  have h : (start l program state store).Shows l 0 (c.performed handler state 0) :=
    ⟨rfl, rfl, rfl, fun _ _ => List.not_mem_nil, ⟨_, rfl, hf⟩, rfl, rfl⟩
  h.performed n

/-- A description that follows a computation. It begins with a step of the program's own. -/
theorem shows_described {c : Sequential I V T} {program : P} {s : S}
    (hp : l.form program = .describe s) (hu : Untroubled (l.forcing (.describe s) store))
    (hf : l.Follows c (l.force (.describe s) store)) (state : H) (n : Nat) :
    ((start l program state store).alone l (config.limited none) handler (n + 1)).Shows l 1
      (c.performed handler state n) := by
  rw [Nat.add_comm, alone_add]
  refine Shows.performed ?_ n
  have hstart : start l program state store =
      ⟨[], ⟨.reducing (.delay (.describe s)), .zero, state⟩, store⟩ := by
    rw [start, Language.node, hp]
    rfl
  rw [hstart]
  change Shows l 1 (turn l (config.limited none) handler _ .own) _
  rw [turn_delay rfl, List.nil_append]
  exact ⟨l.dealings_forcing (.describe s) store, rfl, rfl, hu, ⟨_, rfl, hf⟩, rfl, rfl⟩

end Scene

end Trampoline
