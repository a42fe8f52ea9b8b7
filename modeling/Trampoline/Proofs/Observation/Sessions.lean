import Trampoline.Proofs.Observation.Transcripts
import Trampoline.Proofs.Observation.Wrapping

/-!
A recorded handler that is used again and again. Every run adds its own calls to the record, whether it
comes to its end, fails, strikes the limit or is dropped on the way; and the record can be read at any
moment.
-/
namespace Trampoline

variable {I V X T N P S H H' : Type}

/-- A run of a program, with all that it and others do until it is over or dropped. -/
structure Stint (I V X : Type) where
  {T P S : Type}
  language : Language I V X T P S
  program : P
  config : RunConfig
  turns : List (Turn I V X)

/-! ### The last call -/

/-- Either all calls of a run were answered, or the last one is under way, or it has failed and the run
with it. -/
theorem Stage.Accounts.split [InstructionSet I] {stats : RunStats} {calls : List (Call I V)}
    {stage : Stage I T N} (h : stage.Accounts stats calls) :
    (Answered calls ∧ stage.isCalling = false ∧
        ∀ name failure, stage ≠ .ended (.error (.handler name failure))) ∨
      (∃ done i, Answered done ∧ calls = done ++ [Call.begun i] ∧ stage.isCalling = true) ∨
      ∃ done i name failure, Answered done ∧ calls = done ++ [Call.ended i (.error failure)] ∧
        stage = .ended (.error (.handler name failure)) := by
  cases stage with
  | reducing node => exact .inl ⟨h.1, rfl, nofun⟩
  | dispatching issued next polls =>
    obtain ⟨_, done, ha, _, hd⟩ := h
    exact .inr (.inl ⟨done, _, ha, hd, rfl⟩)
  | ended outcome =>
    match outcome with
    | .ok _ => exact .inl ⟨h.1, rfl, nofun⟩
    | .error (.handler name failure) =>
      obtain ⟨done, i, ha, hd, _⟩ := h
      exact .inr (.inr ⟨done, i, name, failure, ha, hd, rfl⟩)
    | .error (.cell _ _) => exact .inl ⟨h, rfl, nofun⟩
    | .error (.build _) => exact .inl ⟨h, rfl, nofun⟩
    | .error (.stepLimitExceeded _) => exact .inl ⟨h, rfl, nofun⟩

namespace Stage.Accounts

variable [InstructionSet I] {stats : RunStats} {calls : List (Call I V)}

theorem dropLast {stage : Stage I T N} (h : stage.Accounts stats calls) : Answered calls.dropLast := by
  obtain ⟨ha, _⟩ | ⟨done, i, ha, rfl, _⟩ | ⟨done, i, _, _, ha, rfl, _⟩ := h.split
  · exact fun call hc => ha call (List.dropLast_subset calls hc)
  · rwa [List.dropLast_concat]
  · rwa [List.dropLast_concat]

/-- In a run that is over, the last call went without an answer only if the handler refused it. -/
theorem failed_iff {outcome : Except RunError T}
    (h : (Stage.ended outcome : Stage I T N).Accounts stats calls) :
    (∃ call, calls.getLast? = some call ∧ call.succeeded = false) ↔
      ∃ name failure, outcome = .error (.handler name failure) := by
  obtain ⟨ha, _, hn⟩ | ⟨_, _, _, _, hc⟩ | ⟨done, i, name, failure, _, rfl, ho⟩ := h.split
  · constructor
    · rintro ⟨call, hl, hs⟩
      rw [ha call (List.mem_of_getLast? hl)] at hs
      cases hs
    · rintro ⟨name, failure, ho⟩
      exact absurd (congrArg Stage.ended ho) (hn name failure)
  · cases hc
  · refine iff_of_true ⟨_, List.getLast?_concat, rfl⟩ ⟨name, failure, ?_⟩
    cases ho
    rfl

end Stage.Accounts

theorem Run.stage_eq_ended {run : Run I T N H} {outcome : Except RunError T}
    (h : run.outcome? = some outcome) : run.stage = .ended outcome := by
  obtain ⟨stage, stats, state⟩ := run
  cases stage with
  | reducing _ => cases h
  | dispatching _ _ _ => cases h
  | ended _ => exact congrArg Stage.ended (Option.some.inj h)

theorem Scene.history_prefix [InstructionSet I] (l : Language I V X T P S) (config : RunConfig)
    (handler : Handler I V H) (scene : Scene I V X T P S H) (turns : List (Turn I V X)) :
    scene.history <+: (scene.play l config handler turns).history := by
  induction turns generalizing scene with
  | nil => exact List.prefix_rfl
  | cons turn turns ih =>
    refine .trans ?_ (ih (scene.turn l config handler turn))
    cases turn <;> exact List.prefix_append _ _

namespace Stint

/-- The handler and the store that a run finds, without the record. -/
def bare (place : Recorded H × Store I V X) : H × Store I V X :=
  (place.1.inner, place.2)

section

variable [InstructionSet I] (handler : Handler I V H) (stint : Stint I V X) (place : H × Store I V X)

/-- Where the run stands after its turns. The place is the handler and the store that it finds. -/
def last : Scene I V X stint.T stint.P stint.S H :=
  (Scene.start stint.language stint.program place.1 place.2).play stint.language stint.config handler
    stint.turns

/-- The handler and the store after the run, which is dropped if it is not over. -/
def leave : H × Store I V X :=
  ((stint.last handler place).run.handler,
    (stint.language.executor stint.config handler).abandon (stint.last handler place).run
      (stint.last handler place).store)

/-- The calls that the handler gets in the run. -/
def calls : List (Call I V) :=
  Dealing.transcript (stint.last handler place).dealings

def entries : List LogEntry :=
  (stint.calls handler place).map Call.entry

/-- The run by itself, polled until it has taken so many turns. -/
def alone (turns : Nat) : Stint I V X :=
  { stint with turns := List.replicate turns .own }

/-- The run, with more turns than it has had. -/
def longer (more : List (Turn I V X)) : Stint I V X :=
  { stint with turns := stint.turns ++ more }

/-- What is left of several runs, one after the other. -/
def follow (stints : List (Stint I V X)) : H × Store I V X :=
  stints.foldl (fun place stint => stint.leave handler place) place

/-- The entries of several runs, one after the other. -/
def allEntries : List (Stint I V X) → H × Store I V X → List LogEntry
  | [], _ => []
  | stint :: stints, place =>
    stint.entries handler place ++ allEntries stints (stint.leave handler place)

end

/-! ### One run -/

variable [InstructionSet I] {handler : Handler I V H} {stint : Stint I V X} {inner : H}
  {log : Array LogEntry} {store : Store I V X}

/-- A run against a handler around another is a run against the other. -/
theorem last_seen {outer : Handler I V H'} {view : H' → H} (hw : outer.Wraps handler view)
    (stint : Stint I V X) (state : H') (store : Store I V X) :
    (stint.last outer (state, store)).seen view = stint.last handler (view state, store) :=
  Scene.seen_play hw _ stint.turns

theorem calls_seen {outer : Handler I V H'} {view : H' → H} (hw : outer.Wraps handler view)
    (stint : Stint I V X) (state : H') (store : Store I V X) :
    stint.calls outer (state, store) = stint.calls handler (view state, store) := by
  rw [calls, calls, ← last_seen hw]
  rfl

theorem last_recounts (handler : Handler I V H) (stint : Stint I V X)
    (place : Recorded H × Store I V X) (hc : place.2.Coherent) :
    (stint.last handler.recorded place).Recounts place.1.log.toList
      (stint.calls handler (bare place)) := by
  rw [bare, ← calls_seen handler.recorded_wraps stint place.1]
  exact Scene.recounts_start stint.language stint.program place.1 hc stint.turns

/-- What is known of the calls of a recorded run holds without the record. -/
theorem last_accounts (handler : Handler I V H) (stint : Stint I V X) (place : H × Store I V X)
    (hc : place.2.Coherent) :
    (stint.last handler place).dealings = (stint.calls handler place).flatMap Call.dealings ∧
      (stint.last handler place).run.stage.Accounts (stint.last handler place).run.stats
        (stint.calls handler place) := by
  have hr := stint.last_recounts handler (⟨place.1, #[]⟩, place.2) hc
  have hs : _ = stint.last handler place :=
    last_seen handler.recorded_wraps stint ⟨place.1, #[]⟩ place.2
  rw [← hs]
  exact ⟨hr.dealings, hr.stage⟩

/-- A run that is dropped leaves a store in which all is well. -/
theorem coherent_leave (handler : Handler I V H) (stint : Stint I V X) {place : H × Store I V X}
    (hc : place.2.Coherent) : (stint.leave handler place).2.Coherent := by
  have hs : (stint.last handler place).Sound :=
    (Scene.sound_start stint.language hc stint.program place.1).play stint.turns
  rw [leave]
  generalize stint.last handler place = scene at hs
  obtain ⟨history, ⟨stage, stats, state⟩, store⟩ := scene
  have hc : store.Coherent := hs.coherent
  cases stage with
  | ended outcome => exact hc
  | dispatching issued next polls => exact stint.language.coherent_discard hc next
  | reducing node =>
    cases node with
    | result value => exact hc
    | delay next => exact stint.language.coherent_discard hc next
    | await issued next => exact stint.language.coherent_discard hc next

/-- A recorded handler is left as the handler itself is. -/
theorem bare_leave (handler : Handler I V H) (stint : Stint I V X)
    (place : Recorded H × Store I V X) :
    bare (stint.leave handler.recorded place) = stint.leave handler (bare place) := by
  simp only [leave, bare, ← last_seen handler.recorded_wraps stint place.1 place.2]
  generalize stint.last handler.recorded (place.1, place.2) = scene
  obtain ⟨history, ⟨stage, stats, state⟩, store⟩ := scene
  cases stage <;> rfl

/-! ### Several runs -/

theorem follow_recorded (handler : Handler I V H) (stints : List (Stint I V X))
    (place : Recorded H × Store I V X) (hc : place.2.Coherent) :
    bare (follow handler.recorded place stints) = follow handler (bare place) stints ∧
      (follow handler.recorded place stints).1.log.toList =
        place.1.log.toList ++ allEntries handler stints (bare place) ∧
      (follow handler.recorded place stints).2.Coherent := by
  induction stints generalizing place with
  | nil => exact ⟨rfl, (List.append_nil _).symm, hc⟩
  | cons stint stints ih =>
    obtain ⟨hb, hl, hc'⟩ := ih _ (stint.coherent_leave handler.recorded hc)
    have hrun : (stint.leave handler.recorded place).1.log.toList =
        place.1.log.toList ++ stint.entries handler (bare place) :=
      (stint.last_recounts handler place hc).log
    rw [bare_leave] at hb hl
    refine ⟨hb, hl.trans ?_, hc'⟩
    rw [hrun, allEntries, List.append_assoc]

/-! ### The entries of a run -/

section

variable {place : H × Store I V X}

theorem failed_iff (handler : Handler I V H) (stint : Stint I V X) (hc : place.2.Coherent)
    {outcome : Except RunError stint.T}
    (ho : (stint.last handler place).run.outcome? = some outcome) :
    (∃ entry, (stint.entries handler place).getLast? = some entry ∧ entry.succeeded = false) ↔
      ∃ name failure, outcome = .error (.handler name failure) := by
  obtain ⟨-, hstage⟩ := stint.last_accounts handler place hc
  rw [Run.stage_eq_ended ho] at hstage
  rw [← hstage.failed_iff, entries, List.getLast?_map]
  constructor
  · rintro ⟨_, hlast, hf⟩
    obtain ⟨call, hcall, rfl⟩ := Option.map_eq_some_iff.mp hlast
    exact ⟨call, hcall, hf⟩
  · rintro ⟨call, hcall, hf⟩
    exact ⟨call.entry, Option.map_eq_some_iff.mpr ⟨call, hcall, rfl⟩, hf⟩

/-- More turns can only bring more dealings. -/
theorem dealings_longer (handler : Handler I V H) (stint : Stint I V X) (place : H × Store I V X)
    (more : List (Turn I V X)) :
    (stint.last handler place).dealings <+: ((stint.longer more).last handler place).dealings := by
  have hl : (stint.longer more).last handler place =
      (stint.last handler place).play stint.language stint.config handler more :=
    List.foldl_append
  rw [hl]
  exact (Scene.history_prefix ..).filterMap _

/-- Calls that are over stay as they are. -/
theorem entries_between (handler : Handler I V H) (stint : Stint I V X) (hc : place.2.Coherent)
    (hcalling : (stint.last handler place).run.stage.isCalling = false)
    (more : List (Turn I V X)) :
    stint.entries handler place <+: (stint.longer more).entries handler place := by
  obtain ⟨hd, hstage⟩ := stint.last_accounts handler place hc
  have hover : ∀ call ∈ stint.calls handler place, call.result.isSome := by
    obtain ⟨ha, _⟩ | ⟨_, _, _, _, hn⟩ | ⟨done, i, _, _, ha, hcalls, _⟩ := hstage.split
    · exact ha.isSome
    · rw [hn] at hcalling
      cases hcalling
    · rw [hcalls]
      exact List.forall_mem_append.mpr ⟨ha.isSome, List.forall_mem_singleton.mpr rfl⟩
  obtain ⟨rest, hm⟩ := stint.dealings_longer handler place more
  have hmore : (stint.longer more).calls handler place =
      stint.calls handler place ++ Dealing.transcript rest := by
    rw [calls, ← hm, hd, Dealing.transcript_append hover]
  rw [entries, entries, hmore, List.map_append]
  exact List.prefix_append _ _

/-- A call that is under way may yet come to something. -/
theorem entries_during (handler : Handler I V H) (stint : Stint I V X) (hc : place.2.Coherent)
    (hcalling : (stint.last handler place).run.stage.isCalling = true) :
    ∃ done entry, stint.entries handler place = done ++ [entry] ∧ entry.succeeded = false ∧
      ∀ more, ∃ succeeded, done ++ [{ entry with succeeded := succeeded }] <+:
        (stint.longer more).entries handler place := by
  obtain ⟨hd, hstage⟩ := stint.last_accounts handler place hc
  obtain ⟨done, i, ha, hcalls⟩ : ∃ done i, Answered done ∧
      stint.calls handler place = done ++ [Call.begun i] := by
    obtain ⟨_, hn, _⟩ | ⟨done, i, ha, hcalls, _⟩ | ⟨_, _, _, _, _, _, hn⟩ := hstage.split
    · rw [hn] at hcalling
      cases hcalling
    · exact ⟨done, i, ha, hcalls⟩
    · rw [hn] at hcalling
      cases hcalling
  refine ⟨done.map Call.entry, (Call.begun i : Call I V).entry, ?_, rfl, fun more => ?_⟩
  · rw [entries, hcalls, List.map_append]
    rfl
  · obtain ⟨rest, hm⟩ := stint.dealings_longer handler place more
    rw [hcalls, List.flatMap_append] at hd
    rw [entries, calls, ← hm, hd, List.append_assoc, Dealing.transcript_append ha.isSome,
      List.map_append]
    exact ⟨_, (List.prefix_append_right_inj _).mpr ⟨_, rfl⟩⟩

end

/-- What is known of a record at a moment of a run, which has found the recorded handler and the store at
the given place. -/
structure ExactRecord (handler : Handler I V H) (stint : Stint I V X)
    (place : Recorded H × Store I V X) : Prop where
  /-- The record does not show in the run. -/
  seen : (stint.last handler.recorded place).seen Recorded.inner = stint.last handler (bare place)
  log : (stint.last handler.recorded place).run.handler.log.toList =
    place.1.log.toList ++ stint.entries handler (bare place)
  /-- The calls are all that passes between the run and the handler, and what has come of a call is
  told before the next call begins. -/
  calls : (stint.last handler (bare place)).dealings =
    (stint.calls handler (bare place)).flatMap Call.dealings
  answered : ∀ entry ∈ (stint.entries handler (bare place)).dropLast, entry.succeeded = true
  failed : ∀ {outcome}, (stint.last handler (bare place)).run.outcome? = some outcome →
    ((∃ entry, (stint.entries handler (bare place)).getLast? = some entry ∧
        entry.succeeded = false) ↔
      ∃ name failure, outcome = .error (.handler name failure))
  completed : ∀ {value}, (stint.last handler (bare place)).run.outcome? = some (.ok value) →
    (stint.entries handler (bare place)).length =
      (stint.last handler (bare place)).run.stats.dispatches
  /-- A run that is dropped between two calls has made entries that the run makes anyway. -/
  between : (stint.last handler (bare place)).run.stage.isCalling = false → ∀ more,
    stint.entries handler (bare place) <+: (stint.longer more).entries handler (bare place)
  /-- The same holds of a run that is dropped during a call, but the entry of this call may yet come to
  be marked. -/
  during : (stint.last handler (bare place)).run.stage.isCalling = true →
    ∃ done entry, stint.entries handler (bare place) = done ++ [entry] ∧ entry.succeeded = false ∧
      ∀ more, ∃ succeeded, done ++ [{ entry with succeeded := succeeded }] <+:
        (stint.longer more).entries handler (bare place)
  /-- However often the run is polled before it is dropped, it has taken so many turns. -/
  polled : ∀ {R : Type} (report : R → Event → R) (reported : R) (fuel n : Nat),
    let first := Scene.start stint.language stint.program place.1 place.2
    ∃ turns told, (stint.language.executor stint.config handler.recorded).polled report fuel n
      (first.run, first.store, reported) =
        (((stint.alone turns).last handler.recorded place).run,
          ((stint.alone turns).last handler.recorded place).store, told)

/-- A record is exact at every moment, whatever the recorded handler was used for before. -/
theorem record_exact (handler : Handler I V H) (state : H) (log : Array LogEntry) (shared : X)
    (before : List (Deed I V X)) (earlier : List (Stint I V X)) (stint : Stint I V X) :
    let store := before.foldl Deed.apply (Store.fresh shared)
    let place := follow handler.recorded (⟨state, log⟩, store) earlier
    bare place = follow handler (state, store) earlier ∧
      place.1.log.toList = log.toList ++ allEntries handler earlier (state, store) ∧
      stint.ExactRecord handler place := by
  intro store place
  have hc : store.Coherent := (Store.Coherent.fresh shared).deeds before
  obtain ⟨hb, hl, hp⟩ := follow_recorded handler earlier (⟨state, log⟩, store) hc
  have hr : (stint.last handler.recorded place).Recounts place.1.log.toList _ :=
    stint.last_recounts handler place hp
  have hp' : (bare place).2.Coherent := hp
  obtain ⟨hd, hstage⟩ := stint.last_accounts handler (bare place) hp'
  refine ⟨hb, hl, ?_⟩
  exact {
    seen := last_seen handler.recorded_wraps stint place.1 place.2
    log := hr.log
    calls := hd
    answered := by
      rw [entries, ← List.map_dropLast]
      exact List.forall_mem_map.mpr hstage.dropLast
    failed := stint.failed_iff handler hp'
    completed := fun ho => by
      rw [Run.stage_eq_ended ho] at hstage
      rw [entries, List.length_map]
      exact hstage.2
    between := stint.entries_between handler hp'
    during := stint.entries_during handler hp'
    polled := fun report reported fuel n =>
      Scene.polled_alone stint.language stint.config handler.recorded _ report fuel n reported }

end Stint

end Trampoline
