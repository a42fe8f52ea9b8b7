import Trampoline.Handler.Observed
import Trampoline.Proofs.Runs.Dealings

/-!
What a recorded handler keeps. The calls of a run follow each other, and each of them is over before the
next begins; so the dealings of the run are made up of its calls, and the record tells these and nothing
else, whether or not the run has come to its end.
-/
namespace Trampoline

variable {I V X T N P S H : Type}

/-- A call of a handler, and what has come of it so far. -/
structure Call (I V : Type) where
  instruction : I
  result : Option (Except Failure V)

namespace Call

/-- A call that is not over. -/
def begun (i : I) : Call I V :=
  ⟨i, none⟩

def ended (i : I) (result : Except Failure V) : Call I V :=
  ⟨i, some result⟩

/-- What passes between a run and its handler in a call. -/
def dealings (call : Call I V) : List (Dealing I V) :=
  .call call.instruction ::
    match call.result with
    | none => []
    | some (.ok value) => [.answer call.instruction value]
    | some (.error failure) => [.refusal call.instruction failure]

@[simp]
theorem dealings_begun (i : I) : (begun i : Call I V).dealings = [.call i] :=
  rfl

@[simp]
theorem dealings_answered (i : I) (value : V) :
    (ended i (.ok value)).dealings = [.call i, .answer i value] :=
  rfl

@[simp]
theorem dealings_refused (i : I) (failure : Failure) :
    (ended i (.error failure) : Call I V).dealings = [.call i, .refusal i failure] :=
  rfl

/-- Whether the call was answered. -/
def succeeded (call : Call I V) : Bool :=
  match call.result with
  | some (.ok _) => true
  | some (.error _) => false
  | none => false

/-- The entry of a call in a record. -/
def entry [InstructionSet I] (call : Call I V) : LogEntry :=
  ⟨InstructionSet.name call.instruction, InstructionSet.detail call.instruction, call.succeeded⟩

end Call

namespace Dealing

/-- What has come of the call before these dealings. -/
def result? : List (Dealing I V) → Option (Except Failure V)
  | .answer _ value :: _ => some (.ok value)
  | .refusal _ failure :: _ => some (.error failure)
  | .call _ :: _ => none
  | [] => none

/-- The calls among dealings. What comes of a call is told by the dealing right after it. -/
def transcript : List (Dealing I V) → List (Call I V)
  | [] => []
  | .call i :: rest => ⟨i, result? rest⟩ :: transcript rest
  | .answer _ _ :: rest => transcript rest
  | .refusal _ _ :: rest => transcript rest

theorem result?_flatMap (calls : List (Call I V)) : result? (calls.flatMap Call.dealings) = none := by
  cases calls with
  | nil => rfl
  | cons call calls =>
    obtain ⟨i, _ | _ | _⟩ := call <;> rfl

/-- The transcript of calls, one after the other, is those calls. -/
theorem transcript_flatMap (calls : List (Call I V)) :
    transcript (calls.flatMap Call.dealings) = calls := by
  induction calls with
  | nil => rfl
  | cons call calls ih =>
    have hr := result?_flatMap calls
    obtain ⟨i, result⟩ := call
    cases result with
    | none => simp [Call.dealings, transcript, hr, ih]
    | some result => cases result <;> simp [Call.dealings, transcript, result?, ih]

/-- Calls that are over are told by what has passed until then, whatever follows. -/
theorem transcript_append {calls : List (Call I V)} (h : ∀ call ∈ calls, call.result.isSome)
    (more : List (Dealing I V)) :
    transcript (calls.flatMap Call.dealings ++ more) = calls ++ transcript more := by
  induction calls with
  | nil => rfl
  | cons call calls ih =>
    obtain ⟨hcall, hcalls⟩ := List.forall_mem_cons.mp h
    obtain ⟨i, _ | _ | _⟩ := call
    · cases hcall
    all_goals simp [Call.dealings, transcript, result?, ih hcalls]

end Dealing

/-- A poll of a recorded call. -/
theorem Handler.recorded_poll [InstructionSet I] (handler : Handler I V H) (i : I) (polls : Nat)
    (inner : H) (log : Array LogEntry) (cell : Cell V) :
    handler.recorded.poll i polls ⟨inner, log⟩ cell =
      let log := if polls = 0 then log.push (.begun i) else log
      let polled := handler.poll i polls inner cell
      ⟨polled.reply,
        ⟨polled.state,
          match polled.reply with
          | .answered _ => markLast log
          | .pending => log
          | .refused _ => log⟩,
        polled.cell, polled.events⟩ :=
  rfl

/-! ### What the calls of a run have come to -/

/-- All the calls were answered. -/
def Answered (calls : List (Call I V)) : Prop :=
  ∀ call ∈ calls, call.succeeded = true

theorem Answered.snoc {calls : List (Call I V)} (h : Answered calls) (i : I) (value : V) :
    Answered (calls ++ [Call.ended i (.ok value)]) := by
  exact List.forall_mem_append.mpr ⟨h, List.forall_mem_singleton.mpr rfl⟩

theorem Answered.isSome {calls : List (Call I V)} (h : Answered calls) :
    ∀ call ∈ calls, call.result.isSome := by
  intro call hc
  have hs := h call hc
  obtain ⟨i, _ | _⟩ := call
  · cases hs
  · rfl

/-- The calls of a run were answered, as many as the run has counted, but for the one that is under way
and the one that the run has failed with. A cell that does not take its answer is not counted. -/
def Stage.Accounts [InstructionSet I] (stats : RunStats) (calls : List (Call I V)) : Stage I T N → Prop
  | .reducing _ => Answered calls ∧ calls.length = stats.dispatches
  | .dispatching issued _ polls =>
    0 < polls ∧ ∃ done, Answered done ∧ done.length = stats.dispatches ∧
      calls = done ++ [Call.begun issued.instruction]
  | .ended (.ok _) => Answered calls ∧ calls.length = stats.dispatches
  | .ended (.error (.handler name failure)) =>
    ∃ done i, Answered done ∧ calls = done ++ [Call.ended i (.error failure)] ∧
      name = InstructionSet.name i
  | .ended (.error _) => Answered calls

/-- What was marked is the last entry. -/
theorem toList_markLast {log : Array LogEntry} {entries : List LogEntry} {entry : LogEntry}
    (h : log.toList = entries ++ [entry]) :
    (markLast log).toList = entries ++ [{ entry with succeeded := true }] := by
  have hs : log.size - 1 = entries.length := by
    rw [← Array.length_toList, h, List.length_append]
    rfl
  rw [markLast, Array.toList_modify, h, hs, List.modify_eq_take_drop, List.take_left, List.drop_left]
  rfl

namespace Scene

/-- The dealings of a run are made up of calls, and these were added to the record. -/
structure Recounts [InstructionSet I] (before : List LogEntry) (calls : List (Call I V))
    (scene : Scene I V X T P S (Recorded H)) : Prop where
  dealings : scene.dealings = calls.flatMap Call.dealings
  log : scene.run.handler.log.toList = before ++ calls.map Call.entry
  stage : scene.run.stage.Accounts scene.run.stats calls

variable [InstructionSet I] {l : Language I V X T P S} {config : RunConfig}
  {handler : Handler I V H} {history : List (Happening I V)} {stats : RunStats}
  {state : Recorded H} {store : Store I V X} {before : List LogEntry} {calls done : List (Call I V)}
  {scene : Scene I V X T P S (Recorded H)}

private theorem recounts_built (built : Except BuildError (Node I T (Thunk V P S)) × Store I V X)
    (hd : history.filterMap Happening.dealing? = calls.flatMap Call.dealings)
    (hl : state.log.toList = before ++ calls.map Call.entry) (ha : Answered calls)
    (hn : calls.length = stats.dispatches) :
    Recounts before calls (⟨history, ⟨.built built.1, stats, state⟩, built.2⟩ :
      Scene I V X T P S (Recorded H)) := by
  refine ⟨hd, hl, ?_⟩
  obtain ⟨_ | _, _⟩ := built
  · exact ha
  · exact ⟨ha, hn⟩

private theorem recounts_settled {issued : Issued I} (next : Thunk V P S)
    (hd : history.filterMap Happening.dealing? =
      (done ++ [Call.begun issued.instruction]).flatMap Call.dealings)
    (ha : Answered done) (hn : done.length = stats.dispatches) (reply : Except Failure V)
    (hl : state.log.toList =
      before ++ (done ++ [Call.ended issued.instruction reply]).map Call.entry) :
    (settled l history issued next stats store reply state).Recounts before
      (done ++ [Call.ended issued.instruction reply]) := by
  rw [List.flatMap_append] at hd
  cases reply with
  | error failure =>
    refine ⟨?_, hl, done, issued.instruction, ha, rfl, rfl⟩
    simp [settled, Scene.dealings, Happening.dealing?, hd, l.dealings_discarding]
  | ok value =>
    have ha' := ha.snoc issued.instruction value
    rw [settled]
    split
    · refine recounts_built (l.force next _) ?_ hl ha' (by simp [hn])
      simp [Happening.dealing?, hd, l.dealings_forcing]
    · refine ⟨?_, hl, ha'⟩
      simp [Scene.dealings, Happening.dealing?, hd, l.dealings_discarding]

/-- A poll of a call. The entry of the call is made in the first poll. -/
private theorem recounts_polled {issued : Issued I} (hb : issued.cell < store.cells.size)
    (next : Thunk V P S) (polls : Nat)
    (hd : history.filterMap Happening.dealing? =
      (done ++ [Call.begun issued.instruction]).flatMap Call.dealings)
    (ha : Answered done) (hn : done.length = stats.dispatches)
    (hl : (if polls = 0 then state.log.push (.begun issued.instruction) else state.log).toList =
      before ++ (done ++ [Call.begun issued.instruction]).map Call.entry) :
    ∃ calls, (turn l config handler.recorded
      ⟨history, ⟨.dispatching issued next polls, stats, state⟩, store⟩ .own).Recounts before
        calls := by
  obtain ⟨inner, log⟩ := state
  rw [turn_polled hb, Handler.recorded_poll]
  generalize (if polls = 0 then log.push (.begun issued.instruction) else log) = log at hl ⊢
  generalize handler.poll issued.instruction polls inner (store.cellAt issued.cell) = polled
  obtain ⟨reply, inner, cell, events⟩ := polled
  cases reply with
  | pending => exact ⟨_, hd, hl, Nat.succ_pos _, done, ha, hn, rfl⟩
  | refused failure =>
    refine ⟨_, recounts_settled next hd ha hn (.error failure) ?_⟩
    rw [List.map_append] at hl ⊢
    exact hl
  | answered value =>
    refine ⟨_, recounts_settled next hd ha hn (.ok value) ?_⟩
    rw [List.map_append, ← List.append_assoc] at hl ⊢
    exact toList_markLast hl

/-- One turn of a recorded run. -/
private theorem Recounts.own (h : scene.Sound) (hr : scene.Recounts before calls) :
    ∃ calls, (scene.turn l config handler.recorded .own).Recounts before calls := by
  obtain ⟨history, ⟨stage, stats, state⟩, store⟩ := scene
  obtain ⟨hd, hl, hs⟩ := hr
  cases stage with
  | ended outcome =>
    rw [turn_ended]
    exact ⟨calls, hd, hl, hs⟩
  | dispatching issued next polls =>
    obtain ⟨hp, done, ha, hn, rfl⟩ := hs
    exact recounts_polled (h.hand_lt rfl) next polls hd ha hn (by rwa [if_neg (Nat.ne_of_gt hp)])
  | reducing node =>
    obtain ⟨ha, hn⟩ := hs
    have exceeded {limit : Nat} (he : config.exceeded? (stats.steps + 1) = some limit)
        {next : Thunk V P S} (hnode : node = .delay next ∨ ∃ issued, node = .await issued next) :
        ∃ calls, (turn l config handler.recorded
          ⟨history, ⟨.reducing node, stats, state⟩, store⟩ .own).Recounts before calls := by
      rw [turn_exceeded he hnode]
      refine ⟨calls, ?_, hl, ha⟩
      rw [Scene.dealings, List.filterMap_append, l.dealings_discarding, List.append_nil]
      exact hd
    cases node with
    | result value =>
      rw [turn_result]
      exact ⟨calls, hd, hl, ha, hn⟩
    | delay next =>
      cases he : config.exceeded? (stats.steps + 1) with
      | some limit => exact exceeded he (.inl rfl)
      | none =>
        rw [turn_delay he]
        refine ⟨calls, recounts_built (l.force next store) ?_ hl ha hn⟩
        rw [List.filterMap_append, l.dealings_forcing, List.append_nil]
        exact hd
    | await issued next =>
      cases he : config.exceeded? (stats.steps + 1) with
      | some limit => exact exceeded he (.inr ⟨issued, rfl⟩)
      | none =>
        rw [turn_await he]
        refine recounts_polled (h.hand_lt rfl) next 0 ?_ ha hn ?_
        · rw [List.filterMap_append, List.flatMap_append]
          exact congrArg (· ++ _) hd
        · rw [if_pos rfl, Array.toList_push, hl, List.map_append, List.append_assoc]
          rfl

theorem Recounts.turn (h : scene.Sound) (hr : scene.Recounts before calls) (turn : Turn I V X) :
    ∃ calls, (scene.turn l config handler.recorded turn).Recounts before calls := by
  cases turn with
  | own => exact hr.own h
  | other deed =>
    have ho : (deed.happenings scene.store).filterMap Happening.dealing? = [] :=
      List.filterMap_eq_nil_iff.mpr fun _ hm =>
        Happening.dealing?_of_isAction (Deed.isAction_of_mem_happenings hm)
    refine ⟨calls, ?_, hr.log, hr.stage⟩
    rw [Scene.dealings, Scene.turn, List.filterMap_append, ho, List.append_nil]
    exact hr.dealings

/-- Whatever the run and others do, the record tells the calls of the run. -/
theorem Recounts.play (h : scene.Sound) (hr : scene.Recounts before calls)
    (turns : List (Turn I V X)) :
    ∃ calls, (scene.play l config handler.recorded turns).Recounts before calls := by
  induction turns generalizing scene calls with
  | nil => exact ⟨calls, hr⟩
  | cons turn turns ih =>
    obtain ⟨_, hr'⟩ := hr.turn h turn
    exact ih (h.turn turn) hr'

/-- The record of a run, from its beginning on. -/
theorem recounts_start (l : Language I V X T P S) (program : P) (state : Recorded H)
    (hc : store.Coherent) (turns : List (Turn I V X)) :
    let last := (start l program state store).play l config handler.recorded turns
    last.Recounts state.log.toList (Dealing.transcript last.dealings) := by
  intro last
  have hfirst : (start l program state store).Recounts state.log.toList [] :=
    ⟨rfl, (List.append_nil _).symm, nofun, rfl⟩
  obtain ⟨calls, hr⟩ : ∃ calls, last.Recounts state.log.toList calls :=
    hfirst.play (sound_start l hc program state) turns
  rwa [hr.dealings, Dealing.transcript_flatMap]

end Scene

end Trampoline
