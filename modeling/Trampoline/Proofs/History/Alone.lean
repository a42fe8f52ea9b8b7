import Trampoline.Proofs.History.Turns

/-!
A run that goes on by itself, without a step limit. A call may take any number of polls; all of them
together are one call, which ends with the answer or with a failure of the handler.
-/
namespace Trampoline

variable {I V X T P S H : Type}

/-- Polls a call until it is over, at most so many times. The cell is one that nobody has used. -/
def Handler.settle (handler : Handler I V H) (instruction : I) :
    Nat → Nat → H → Option (Except Failure V × H)
  | 0, _, _ => none
  | fuel + 1, polls, state =>
    let polled := handler.poll instruction polls state .empty
    match polled.reply with
    | .pending => handler.settle instruction fuel (polls + 1) polled.state
    | .answered value => some (.ok value, polled.state)
    | .refused failure => some (.error failure, polled.state)

/-- The instruction that the handler is called for. -/
def Happening.call? : Happening I V → Option I
  | called i => some i.instruction
  | _ => none

/-- An answer that was put into a cell is taken out again and handed on. -/
theorem Language.force_answer (l : Language I V X T P S) {store : Store I V X} {c : Nat}
    (hc : c < store.cells.size) (value : V) (next : V → P) :
    l.force (.answer c next) (store.putCell c (.full value)) =
      (.ok (l.node (next value) (store.putCell c .taken)).1,
        (l.node (next value) (store.putCell c .taken)).2) := by
  simp only [force, Store.takeCell, Store.cellAt_putCell_self _ hc, Cell.take,
    Store.putCell_putCell]

namespace Scene

/-- The calls of the handler so far, in their order. -/
def calls (scene : Scene I V X T P S H) : List I :=
  scene.history.filterMap Happening.call?

variable [InstructionSet I] {l : Language I V X T P S} {config : RunConfig}
  {handler : Handler I V H} {scene scene' scene'' : Scene I V X T P S H}
  {history : List (Happening I V)} {stats : RunStats} {state : H} {store : Store I V X}

theorem alone_add (scene : Scene I V X T P S H) (m n : Nat) :
    scene.alone l config handler (m + n) =
      (scene.alone l config handler m).alone l config handler n := by
  rw [alone, ← List.replicate_append_replicate, play, List.foldl_append]
  rfl

/-- A run that is over stays as it is. -/
theorem alone_ended (outcome : Except RunError T) (n : Nat) :
    alone l config handler ⟨history, ⟨.ended outcome, stats, state⟩, store⟩ n =
      ⟨history, ⟨.ended outcome, stats, state⟩, store⟩ := by
  induction n with
  | zero => rfl
  | succ n ih =>
    rw [alone_add, ih]
    exact turn_ended outcome

/-- Nothing changes any more once the run is over. -/
theorem alone_of_outcome? {first : Scene I V X T P S H} {outcome : Except RunError T} {m n : Nat}
    (h : (first.alone l config handler m).run.outcome? = some outcome) (hn : m ≤ n) :
    first.alone l config handler n = first.alone l config handler m := by
  obtain ⟨k, rfl⟩ := Nat.exists_eq_add_of_le hn
  rw [alone_add]
  generalize first.alone l config handler m = scene at h ⊢
  obtain ⟨history, ⟨stage, stats, state⟩, store⟩ := scene
  cases stage with
  | ended _ => exact alone_ended _ k
  | reducing _ => cases h
  | dispatching _ _ _ => cases h

/-- A scene leads to another if the run alone brings it about. -/
def Leads (l : Language I V X T P S) (config : RunConfig) (handler : Handler I V H)
    (scene scene' : Scene I V X T P S H) : Prop :=
  ∃ n, scene.alone l config handler n = scene'

theorem Leads.turn (h : (scene.turn l config handler .own).Leads l config handler scene') :
    scene.Leads l config handler scene' := by
  obtain ⟨n, h⟩ := h
  exact ⟨n + 1, h⟩

theorem Leads.of_turn (h : scene.turn l config handler .own = scene') :
    scene.Leads l config handler scene' :=
  .turn ⟨0, h⟩

theorem Leads.trans (h : scene.Leads l config handler scene')
    (h' : scene'.Leads l config handler scene'') : scene.Leads l config handler scene'' := by
  obtain ⟨m, rfl⟩ := h
  obtain ⟨n, rfl⟩ := h'
  exact ⟨m + n, alone_add scene m n⟩

/-- What a run leads to in the end it never leaves again. -/
theorem Leads.forever (h : scene.Leads l config handler scene') {outcome : Except RunError T}
    (he : scene'.run.stage = .ended outcome) :
    ∃ n, ∀ m, n ≤ m → scene.alone l config handler m = scene' := by
  obtain ⟨n, rfl⟩ := h
  refine ⟨n, fun m hm => ?_⟩
  obtain ⟨k, rfl⟩ := Nat.exists_eq_add_of_le hm
  rw [alone_add]
  generalize scene.alone l config handler n = scene' at he ⊢
  obtain ⟨history, ⟨stage, stats, state⟩, store⟩ := scene'
  cases he
  exact alone_ended outcome k

theorem leads_delay (hl : config.stepLimit = none) (next : Thunk V P S) :
    Leads l config handler ⟨history, ⟨.reducing (.delay next), stats, state⟩, store⟩
      ⟨history ++ l.forcing next store,
        ⟨.built (l.force next store).1, ⟨stats.steps + 1, stats.delays + 1, stats.dispatches⟩,
          state⟩,
        (l.force next store).2⟩ :=
  .of_turn (turn_delay (by rw [RunConfig.exceeded?, hl]) next)

theorem leads_settled (hh : handler.SparesCells) {issued : Issued I} (next : Thunk V P S)
    (hc : store.cellAt issued.cell = .empty) {fuel polls : Nat} {reply : Except Failure V}
    {state' : H}
    (h : handler.settle issued.instruction fuel polls state = some (reply, state')) :
    Leads l config handler ⟨history, ⟨.dispatching issued next polls, stats, state⟩, store⟩
      (settled l history issued next stats store reply state') := by
  induction fuel generalizing polls state with
  | zero => cases h
  | succ fuel ih =>
    have ht : turn l config handler
        ⟨history, ⟨.dispatching issued next polls, stats, state⟩, store⟩ .own = _ :=
      turn_dispatching hh issued next polls
    rw [hc] at ht
    simp only [Handler.settle] at h
    split at ht <;> rename_i hp <;> simp only [hp] at h
    · exact .turn (ht ▸ ih h)
    · cases h
      exact .of_turn ht
    · cases h
      exact .of_turn ht

/-- A call that comes to an end, from the node of its instruction on. -/
theorem leads_called (hl : config.stepLimit = none) (hh : handler.SparesCells) {issued : Issued I}
    (next : Thunk V P S) (hc : store.cellAt issued.cell = .empty) {fuel : Nat}
    {reply : Except Failure V} {state' : H}
    (h : handler.settle issued.instruction fuel 0 state = some (reply, state')) :
    Leads l config handler ⟨history, ⟨.reducing (.await issued next), stats, state⟩, store⟩
      (settled l (history ++ [.called issued]) issued next { stats with steps := stats.steps + 1 }
        store reply state') := by
  have he : config.exceeded? (stats.steps + 1) = none := by rw [RunConfig.exceeded?, hl]
  have hs : Leads l config handler
      ⟨history ++ [.called issued],
        ⟨.dispatching issued next 0, { stats with steps := stats.steps + 1 }, state⟩, store⟩ _ :=
    leads_settled hh next hc h
  obtain ⟨n | n, hn⟩ := hs
  · cases reply <;> simp [alone, play, settled, hc, Cell.set, Stage.built] at hn
  · exact .turn ⟨n, by rw [turn_await he]; exact hn⟩

end Scene

end Trampoline
