import Mathlib.Data.List.Induction
import Trampoline.Proofs.Observation.Sessions

/-!
Handlers inside layers of observation, however many there are and in whatever order. A run against all the
layers is the run against the handler alone, and every layer that keeps a record has recorded the calls
that the handler has received.
-/
namespace Trampoline

variable {I V X T P S H : Type}

namespace Layered

/-- The records of all the layers, the outermost first. -/
def logs : (layers : List Layer) → Layered H layers → List (Array LogEntry)
  | [], _ => []
  | .logging :: layers, state => logs layers state
  | .recording :: layers, state => Recorded.log state :: logs layers (Recorded.inner state)

theorem head?_logs (layers : List Layer) (state : Layered H layers) :
    (logs layers state).head? = log? layers state := by
  induction layers with
  | nil => rfl
  | cons layer layers ih =>
    cases layer with
    | logging => exact ih state
    | recording => rfl

theorem inner_start (layers : List Layer) (state : H) : inner layers (start state layers) = state := by
  induction layers with
  | nil => rfl
  | cons layer layers ih => cases layer <;> exact ih

end Layered

namespace Handler

/-- The handler, with a note of the calls that it receives. -/
def noted (handler : Handler I V H) : Handler I V (H × List I) where
  poll i polls state cell :=
    let ⟨reply, inner, cell, events⟩ := handler.poll i polls state.1 cell
    ⟨reply, (inner, state.2 ++ if polls = 0 then [i] else []), cell, events⟩

theorem noted_wraps (handler : Handler I V H) : handler.noted.Wraps handler Prod.fst :=
  ⟨fun _ _ _ _ => rfl, fun _ _ _ _ => rfl, fun _ _ _ _ => rfl⟩

end Handler

/-- The instructions of a transcript are those of the calls. -/
theorem Dealing.map_transcript (dealings : List (Dealing I V)) :
    (transcript dealings).map Call.instruction = dealings.filterMap Dealing.call? := by
  induction dealings with
  | nil => rfl
  | cons dealing dealings ih =>
    cases dealing with
    | call i => simp [transcript, Dealing.call?, ih]
    | answer i value => exact ih
    | refusal i failure => exact ih

namespace Scene

variable [InstructionSet I] {l : Language I V X T P S} {config : RunConfig}
  {handler : Handler I V H} {history : List (Happening I V)} {stats : RunStats} {store : Store I V X}

/-! ### Calls that the handler has noted -/

private theorem handler_settled {state : H} (issued : Issued I) (next : Thunk V P S)
    (reply : Except Failure V) :
    (settled l history issued next stats store reply state).run.handler = state := by
  cases reply with
  | error failure => rfl
  | ok value =>
    rw [settled]
    split <;> rfl

private theorem noted_polled {state : H × List I} {issued : Issued I}
    (hb : issued.cell < store.cells.size) (next : Thunk V P S) (polls : Nat) :
    (turn l config handler.noted ⟨history, ⟨.dispatching issued next polls, stats, state⟩, store⟩
      .own).run.handler.2 = state.2 ++ if polls = 0 then [issued.instruction] else [] := by
  have hs : (handler.noted.poll issued.instruction polls state (store.cellAt issued.cell)).state.2 =
      state.2 ++ if polls = 0 then [issued.instruction] else [] :=
    rfl
  rw [turn_polled hb, ← hs]
  split <;> rename_i hp <;> rw [hp]
  · rw [handler_settled]
  · rw [handler_settled]

/-- The handler notes a call in the turn that makes it. -/
private theorem noted_turn {scene : Scene I V X T P S (H × List I)} (h : scene.Sound)
    (hp : ∀ issued next polls, scene.run.stage = .dispatching issued next polls → 0 < polls) :
    (scene.turn l config handler.noted .own).run.handler.2 =
      scene.run.handler.2 ++ (scene.reduces? config).toList.filterMap Node.call? := by
  obtain ⟨history, ⟨stage, stats, state⟩, store⟩ := scene
  cases stage with
  | ended outcome =>
    rw [turn_ended]
    exact (List.append_nil _).symm
  | dispatching issued next polls =>
    rw [noted_polled (h.hand_lt rfl), if_neg (Nat.ne_of_gt (hp issued next polls rfl))]
    rfl
  | reducing node =>
    cases node with
    | result value =>
      rw [turn_result]
      exact (List.append_nil _).symm
    | delay next =>
      rw [reduces?]
      cases he : config.exceeded? (stats.steps + 1) with
      | some limit =>
        rw [turn_exceeded he (.inl rfl)]
        exact (List.append_nil _).symm
      | none =>
        rw [turn_delay he]
        exact (List.append_nil _).symm
    | await issued next =>
      rw [reduces?]
      cases he : config.exceeded? (stats.steps + 1) with
      | some limit =>
        rw [turn_exceeded he (.inr ⟨issued, rfl⟩)]
        exact (List.append_nil _).symm
      | none =>
        rw [turn_await he, noted_polled (h.hand_lt rfl), if_pos rfl]
        rfl

end Scene

namespace Stint

variable [InstructionSet I] {store : Store I V X}

/-- The handler has noted all calls of a run, and no others. -/
theorem noted_last (handler : Handler I V H) (stint : Stint I V X) (state : H)
    (hc : store.Coherent) :
    (stint.last handler.noted ((state, []), store)).run.handler.2 =
      (stint.last handler (state, store)).calls := by
  have hs : _ = stint.last handler (state, store) :=
    last_seen handler.noted_wraps stint (state, []) store
  rw [← hs]
  change _ = (stint.last handler.noted ((state, []), store)).calls
  clear hs
  obtain ⟨l, program, config, turns⟩ := stint
  induction turns using List.reverseRecOn with
  | nil => rfl
  | append_singleton turns turn ih =>
    let earlier : Stint I V X := ⟨l, program, config, turns⟩
    have hsnoc : (⟨l, program, config, turns ++ [turn]⟩ : Stint I V X).last handler.noted
        ((state, []), store) =
        (earlier.last handler.noted ((state, []), store)).turn l config handler.noted turn :=
      List.foldl_append
    rw [hsnoc]
    cases turn with
    | other deed =>
      have hd : (deed.happenings (earlier.last handler.noted ((state, []), store)).store).filterMap
          Happening.call? = [] :=
        List.filterMap_eq_nil_iff.mpr fun _ hm =>
          Happening.call?_eq_none
            (Happening.dealing?_of_isAction (Deed.isAction_of_mem_happenings hm))
      rw [Scene.calls, Scene.turn, List.filterMap_append, hd, List.append_nil]
      exact ih
    | own =>
      obtain ⟨-, ha⟩ := earlier.last_accounts handler.noted ((state, []), store) hc
      have hsound : (earlier.last handler.noted ((state, []), store)).Sound :=
        (Scene.sound_start l hc program _).play turns
      rw [Scene.calls_turn, ← ih]
      refine Scene.noted_turn hsound fun issued next polls hs => ?_
      rw [hs] at ha
      exact ha.1

/-- What is known of a run against a handler inside layers of observation that have recorded nothing
yet. -/
structure Transparent (handler : Handler I V H) (layers : List Layer) (stint : Stint I V X) (state : H)
    (store : Store I V X) : Prop where
  /-- The layers do not show in the run: not in what happens, the outcome, the counts or the store, nor in
  the state of the handler. -/
  seen : (stint.last (handler.layered layers) (Layered.start state layers, store)).seen
    (Layered.inner layers) = stint.last handler (state, store)
  /-- Nor do they show to whoever polls the run, whatever is made of the reports. -/
  polled : ∀ {R R' : Type} (report : R → Event → R) (report' : R' → Event → R') (reported : R)
    (reported' : R') (fuel n : Nat),
    let first := Scene.start stint.language stint.program (Layered.start state layers) store
    let bare := Scene.start stint.language stint.program state store
    let last := (stint.language.executor stint.config (handler.layered layers)).polled report fuel n
      (first.run, first.store, reported)
    ∃ told, (stint.language.executor stint.config handler).polled report' fuel n
      (bare.run, bare.store, reported') = (last.1.seen (Layered.inner layers), last.2.1, told)
  /-- Inside the layers a handler that notes its calls notes those of the run, each of them once and in
  order. -/
  received : Layered.inner layers (stint.last (handler.noted.layered layers)
      (Layered.start (state, []) layers, store)).run.handler =
    ((stint.last handler (state, store)).run.handler, (stint.last handler (state, store)).calls)
  logs : ∀ log ∈ Layered.logs layers (stint.last (handler.layered layers)
    (Layered.start state layers, store)).run.handler, log.toList = stint.entries handler (state, store)
  /-- One of them is the record that a report of the run shows. -/
  shown : ∀ log, Layered.log? layers (stint.last (handler.layered layers)
      (Layered.start state layers, store)).run.handler = some log →
    log.toList = stint.entries handler (state, store)
  named : (stint.entries handler (state, store)).map (fun entry => (entry.instruction, entry.detail)) =
    (stint.last handler (state, store)).calls.map fun i =>
      (InstructionSet.name i, InstructionSet.detail i)

omit [InstructionSet I] in
private theorem start_seen (layers : List Layer) (stint : Stint I V X)
    (state : H) (store : Store I V X) :
    (Scene.start stint.language stint.program (Layered.start state layers) store).seen
      (Layered.inner layers) = Scene.start stint.language stint.program state store := by
  simp only [Scene.seen, Run.seen, Scene.start, Run.start, Layered.inner_start]

/-- Every record tells the calls of the run. -/
private theorem logs_last (handler : Handler I V H) (layers : List Layer) (stint : Stint I V X)
    (state : H) (hc : store.Coherent) :
    ∀ log ∈ Layered.logs layers (stint.last (handler.layered layers)
      (Layered.start state layers, store)).run.handler,
      log.toList = stint.entries handler (state, store) := by
  induction layers with
  | nil => exact nofun
  | cons layer layers ih =>
    intro log hl
    cases layer with
    | logging =>
      have hs : _ = stint.last (handler.layered layers) (Layered.start state layers, store) :=
        last_seen (handler.layered layers).logged_wraps stint (Layered.start state layers) store
      exact ih log (hs ▸ hl)
    | recording =>
      obtain rfl | hl := List.mem_cons.mp hl
      · have hr := stint.last_recounts (handler.layered layers)
          (⟨Layered.start state layers, #[]⟩, store) hc
        rw [bare, calls_seen (handler.layered_wraps layers), Layered.inner_start] at hr
        exact hr.log
      · have hs : _ = stint.last (handler.layered layers) (Layered.start state layers, store) :=
          last_seen (handler.layered layers).recorded_wraps stint ⟨Layered.start state layers, #[]⟩ store
        exact ih log (hs ▸ hl)

/-- Layers of observation are transparent. -/
theorem layers_transparent (handler : Handler I V H) (layers : List Layer) (stint : Stint I V X)
    (state : H) (shared : X) (before : List (Deed I V X)) :
    stint.Transparent handler layers state (before.foldl Deed.apply (Store.fresh shared)) := by
  have hc : (before.foldl Deed.apply (Store.fresh shared : Store I V X)).Coherent :=
    (Store.Coherent.fresh shared).deeds before
  generalize before.foldl Deed.apply (Store.fresh shared : Store I V X) = store at hc ⊢
  have hs {H : Type} (handler : Handler I V H) (state : H) :
      (stint.last (handler.layered layers) (Layered.start state layers, store)).seen
        (Layered.inner layers) = stint.last handler (state, store) := by
    rw [last_seen (handler.layered_wraps layers), Layered.inner_start]
  have hl := logs_last handler layers stint state hc
  refine ⟨hs handler state, ?_, ?_, hl, fun log hlog => ?_, ?_⟩
  · intro R R' report report' reported reported' fuel n first bare last
    have hb : bare = first.seen (Layered.inner layers) := (start_seen layers stint state store).symm
    rw [hb]
    exact Executor.seen_polled stint.config stint.language.unfolding (handler.layered_wraps layers) report
      report' fuel n first.run first.store reported reported'
  · have hn : (stint.last handler.noted ((state, []), store)).run.handler.1 =
        (stint.last handler (state, store)).run.handler :=
      congrArg (·.run.handler) (last_seen handler.noted_wraps stint (state, []) store)
    change ((stint.last _ _).seen _).run.handler = _
    rw [hs handler.noted (state, []), ← hn, ← noted_last handler stint state hc]
  · exact hl log (List.mem_of_head? ((Layered.head?_logs layers _).trans hlog))
  · rw [entries, List.map_map, Scene.calls_eq_dealings, ← Dealing.map_transcript, List.map_map]
    rfl

end Stint

end Trampoline
