import Trampoline.Proofs.Answers.Others

/-!
Runs against handlers that may do anything to the cells of their instructions. Whatever happens, the
store stays coherent, the instruction in hand has a cell, and the thunk behind it can be forced.
-/
namespace Trampoline

variable {I V X α T P S H : Type}

theorem Store.size_cells_act (store : Store I V X) (k : Nat) (action : Action I X) :
    store.cells.size ≤ (store.act k action).2.cells.size := by
  cases action with
  | request i => simp [act, request, issue, newCell]
  | poll r => exact Nat.le_of_eq (store.size_cells_poll r).symm
  | drop r => exact Nat.le_of_eq (congrArg Array.size (store.cells_drop r)).symm
  | look => exact Nat.le_refl _
  | share x => exact Nat.le_refl _

theorem Store.Coherent.run {store : Store I V X} (hc : store.Coherent) {k : Nat}
    (hk : k < store.slots.size) (script : Script I V X α) : (script.run k store).2.Coherent := by
  induction script generalizing store with
  | done a => exact hc
  | act action next ih =>
    have hk' := Nat.lt_of_lt_of_eq hk (Store.size_slots_act store k action).symm
    exact ih _ (hc.act hk action) hk'

theorem Store.size_cells_deed (store : Store I V X) (deed : Deed I V X) :
    store.cells.size ≤ (deed.apply store).cells.size := by
  cases deed with
  | act slot action =>
    rw [Deed.apply]
    split
    · exact store.size_cells_act slot action
    · exact Nat.le_refl _
  | newSlot => exact Nat.le_refl _
  | issue i => simp [Deed.apply, issue, newCell]
  | collect k => exact Nat.le_of_eq (congrArg Array.size (store.cells_collect k)).symm
  | putCell d cell => simp [Deed.apply, putCell]

theorem Language.coherent_discard (l : Language I V X T P S) {store : Store I V X}
    (hc : store.Coherent) (thunk : Thunk V P S) : (l.discard thunk store).Coherent := by
  cases thunk with
  | resume slot rest => exact hc.dropAll _
  | build body => exact hc
  | fail failure => exact hc
  | answer cell next => exact hc
  | describe start => exact hc

/-- Filling a cell leaves a thunk as fit to be forced as it was. -/
theorem Thunk.Sound.putCell {store : Store I V X} {thunk : Thunk V P S} (h : thunk.Sound store)
    (c : Nat) (cell : Cell V) : thunk.Sound (store.putCell c cell) := by
  cases thunk with
  | answer d next => exact ⟨by simpa [Store.putCell] using h.1, h.2⟩
  | resume slot rest => exact h
  | build body => trivial
  | fail failure => trivial
  | describe start => trivial

/-- The store and a stage of a run fit together. -/
structure Stage.Sound (store : Store I V X) (stage : Stage I T (Thunk V P S)) : Prop where
  coherent : store.Coherent
  hand_lt : ∀ {i : Issued I}, stage.hand.issued? = some i → i.cell < store.cells.size
  thunk : ∀ thunk, stage.next? = some thunk → thunk.Sound store

namespace Stage.Sound

variable {store : Store I V X} {stage : Stage I T (Thunk V P S)}

/-- Where nothing is in hand and nothing comes next, the store alone counts. -/
theorem halt (hc : store.Coherent) (hi : stage.hand.issued? = none) (hn : stage.next? = none) :
    stage.Sound store :=
  ⟨hc, (fun hj => by rw [hi] at hj; cases hj), fun _ ht => by rw [hn] at ht; cases ht⟩

theorem delay (hc : store.Coherent) {next : Thunk V P S} (hn : next.Sound store) :
    Stage.Sound store (.reducing (.delay next) : Stage I T (Thunk V P S)) :=
  ⟨hc, nofun, fun _ ht => by cases ht; exact hn⟩

theorem node (l : Language I V X T P S) (hc : store.Coherent) (program : P) :
    Stage.Sound (l.node program store).2 (.reducing (l.node program store).1) := by
  unfold Language.node
  cases l.form program with
  | pure value => exact .halt hc rfl rfl
  | delay body => exact .delay hc trivial
  | tryDelay body =>
    cases body with
    | ok body => exact .delay hc trivial
    | error failure => exact .delay hc trivial
  | fail failure => exact .delay hc trivial
  | describe start => exact .delay hc trivial
  | perform i next =>
    refine ⟨hc.issue i, fun hi => ?_, fun thunk ht => ?_⟩
    · cases hi
      exact store.cell_issue_lt i
    · cases ht
      refine ⟨store.cell_issue_lt i, fun {r o} ho => ?_⟩
      change store.origins[r]? = some o at ho
      rw [Store.origins, Array.getElem?_map, Option.map_eq_some_iff] at ho
      obtain ⟨q, hq, rfl⟩ := ho
      exact Nat.ne_of_lt (hc.cell_lt hq)

theorem resumeAt (l : Language I V X T P S) (hc : store.Coherent) {k : Nat}
    (hk : k < store.slots.size) (s : S) :
    Stage.Sound (l.resumeAt k s store).2 (.built (l.resumeAt k s store).1) := by
  have hr := hc.run hk (l.resume s)
  have hz := store.size_slots_run k (l.resume s)
  unfold Language.resumeAt
  generalize (l.resume s).run k store = resumed at hr hz ⊢
  obtain ⟨progress, resumed⟩ := resumed
  have hr' := hr.collect k
  cases progress with
  | finished value => exact .halt hr' rfl rfl
  | failed failure => exact .halt hr' rfl rfl
  | suspended rest =>
    cases hi : (resumed.collect k).1 with
    | none =>
      simp only [hi]
      exact .halt (hr'.dropAll _) rfl rfl
    | some i =>
      simp only [hi]
      obtain ⟨n, hp⟩ := Store.pending_of_collect hi
      obtain ⟨_, r, q, hq, _, _, rfl⟩ := hr.holder hp
      refine ⟨hr', fun hi => ?_, fun thunk ht => ?_⟩
      · cases hi
        rw [resumed.cells_collect k]
        exact hr.cell_lt hq
      · cases ht
        exact Nat.lt_of_lt_of_eq hk (hz.symm.trans (resumed.size_slots_collect k).symm)

theorem force (l : Language I V X T P S) (hc : store.Coherent) {thunk : Thunk V P S}
    (hs : thunk.Sound store) :
    Stage.Sound (l.force thunk store).2 (.built (l.force thunk store).1) := by
  cases thunk with
  | build body => exact node l hc body
  | fail failure => exact .halt hc rfl rfl
  | answer cell next =>
    rw [Language.force, Store.takeCell_eq]
    have hc' := hc.putCell cell (store.cellAt cell).fetch.2
    cases (store.cellAt cell).fetch.1 with
    | error e => exact .halt hc' rfl rfl
    | ok value => exact node l hc' (next value)
  | describe start => exact resumeAt l hc.newSlot (by simp [Store.newSlot]) start
  | resume slot rest => exact resumeAt l hc hs rest

/-- What others do to the store takes nothing away. -/
theorem deed (h : stage.Sound store) (deed : Deed I V X) : stage.Sound (deed.apply store) where
  coherent := h.coherent.deed deed
  hand_lt hi := Nat.lt_of_lt_of_le (h.hand_lt hi) (store.size_cells_deed deed)
  thunk thunk ht := (h.thunk thunk ht).deed deed

end Stage.Sound

namespace Scene

variable [InstructionSet I] {l : Language I V X T P S} {config : RunConfig}
  {handler : Handler I V H} {history : List (Happening I V)} {stats : RunStats} {state : H}
  {store : Store I V X} {scene : Scene I V X T P S H}

/-- One more poll of a call, by a handler that may do anything to the cell of the instruction. -/
theorem turn_polled {issued : Issued I} (hb : issued.cell < store.cells.size)
    (next : Thunk V P S) (polls : Nat) :
    turn l config handler ⟨history, ⟨.dispatching issued next polls, stats, state⟩, store⟩ .own =
      match handler.poll issued.instruction polls state (store.cellAt issued.cell) with
      | ⟨.pending, state, cell, _⟩ =>
        ⟨history, ⟨.dispatching issued next (polls + 1), stats, state⟩,
          store.putCell issued.cell cell⟩
      | ⟨.refused failure, state, cell, _⟩ =>
        settled l history issued next stats (store.putCell issued.cell cell) (.error failure) state
      | ⟨.answered value, state, cell, _⟩ =>
        settled l history issued next stats (store.putCell issued.cell cell) (.ok value) state := by
  simp only [turn, Language.stepping, Language.dispatching, Language.executor, Executor.step,
    Executor.pollHandler, Handler.dispatch]
  generalize handler.poll issued.instruction polls state (store.cellAt issued.cell) = polled
  obtain ⟨reply, state, cell, events⟩ := polled
  cases reply with
  | pending => simp only [List.append_nil]
  | refused failure => simp only [Language.unfolding, settled]
  | answered value =>
    simp only [settled, Store.cellAt_putCell_self cell hb, Store.putCell_putCell]
    cases cell.set value with
    | error e => simp only [Language.unfolding]
    | ok cell =>
      simp only [Executor.proceed, Language.unfolding]
      rcases l.force next (store.putCell issued.cell cell) with ⟨_ | _, _⟩ <;> rfl

/-- The store and the run fit together. -/
def Sound (scene : Scene I V X T P S H) : Prop :=
  scene.run.stage.Sound scene.store

omit [InstructionSet I] in
theorem sound_start (l : Language I V X T P S) (hc : store.Coherent) (program : P) (state : H) :
    (start l program state store).Sound :=
  .node l hc program

private theorem sound_settled {issued : Issued I} {next : Thunk V P S} (hc : store.Coherent)
    (hn : next.Sound store) (reply : Except Failure V) :
    (settled l history issued next stats store reply state).Sound := by
  cases reply with
  | error failure => exact .halt (l.coherent_discard hc next) rfl rfl
  | ok value =>
    rw [settled]
    split
    · exact .force l (hc.putCell _ _) (hn.putCell _ _)
    · exact .halt (l.coherent_discard hc next) rfl rfl

private theorem sound_dispatching {issued : Issued I} {next : Thunk V P S} {polls : Nat}
    (h : Stage.Sound store (.dispatching issued next polls : Stage I T (Thunk V P S))) :
    (turn l config handler ⟨history, ⟨.dispatching issued next polls, stats, state⟩, store⟩
      .own).Sound := by
  have hb := h.hand_lt rfl
  have hn := h.thunk next rfl
  rw [turn_polled hb]
  split
  · refine ⟨h.coherent.putCell _ _, fun hi => ?_, fun thunk ht => ?_⟩
    · cases hi
      simpa [Store.putCell] using hb
    · cases ht
      exact hn.putCell _ _
  · exact sound_settled (h.coherent.putCell _ _) (hn.putCell _ _) _
  · exact sound_settled (h.coherent.putCell _ _) (hn.putCell _ _) _

/-- One turn of the run. -/
theorem Sound.own (h : scene.Sound) : (scene.turn l config handler .own).Sound := by
  obtain ⟨history, ⟨stage, stats, state⟩, store⟩ := scene
  cases stage with
  | ended outcome => rwa [turn_ended]
  | dispatching issued next polls => exact sound_dispatching h
  | reducing node =>
    cases node with
    | result value =>
      rw [turn_result]
      exact .halt h.coherent rfl rfl
    | delay next =>
      cases he : config.exceeded? (stats.steps + 1) with
      | some limit =>
        rw [turn_exceeded he (.inl rfl)]
        exact .halt (l.coherent_discard h.coherent next) rfl rfl
      | none =>
        rw [turn_delay he]
        exact .force l h.coherent (h.thunk next rfl)
    | await issued next =>
      cases he : config.exceeded? (stats.steps + 1) with
      | some limit =>
        rw [turn_exceeded he (.inr ⟨issued, rfl⟩)]
        exact .halt (l.coherent_discard h.coherent next) rfl rfl
      | none =>
        rw [turn_await he]
        exact sound_dispatching (T := T) ⟨h.coherent, h.hand_lt, h.thunk⟩

theorem Sound.turn (h : scene.Sound) (turn : Turn I V X) :
    (scene.turn l config handler turn).Sound := by
  cases turn with
  | own => exact h.own
  | other deed => exact h.deed deed

theorem Sound.play (h : scene.Sound) (turns : List (Turn I V X)) :
    (scene.play l config handler turns).Sound := by
  induction turns generalizing scene with
  | nil => exact h
  | cons turn turns ih => exact ih (h.turn turn)

theorem Sound.alone (h : scene.Sound) (n : Nat) : (scene.alone l config handler n).Sound :=
  h.play _

end Scene

end Trampoline
