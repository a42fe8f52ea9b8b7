import Trampoline.Proofs.Runs.Completion

/-!
How often a run is suspended. It pauses by itself after every so many steps, and it waits whenever its
handler is not ready. The pauses and the reports of the steps make no difference to anything else: whoever
polls a run until it is over finds the same outcome, the same counts and the same calls of the handler.
-/
namespace Trampoline

variable {I V X T N P S H : Type}

/-! ### When a run pauses -/

/-- The remainder of a division. By zero there is none. -/
def rem? (a b : Nat) : Option Nat :=
  if b = 0 then none else some (a % b)

/-- Whether a run pauses after so many steps, found out by a division that may go wrong. -/
def RunConfig.pausesAfter? (config : RunConfig) (steps : Nat) : Option Bool :=
  match config.yieldInterval with
  | some interval =>
    if 0 < interval then (rem? steps interval).map fun remainder => remainder == 0 else some false
  | none => some false

/-- The number of steps from one pause to the next; zero where there are no pauses. -/
def RunConfig.interval (config : RunConfig) : Nat :=
  config.yieldInterval.getD 0

/-- The division never goes wrong. -/
theorem RunConfig.pausesAfter?_eq (config : RunConfig) (steps : Nat) :
    config.pausesAfter? steps = some (config.pausesAfter steps) := by
  unfold pausesAfter? pausesAfter
  cases config.yieldInterval with
  | none => rfl
  | some interval =>
    cases interval with
    | zero => rfl
    | succ n => simp [rem?]

theorem RunConfig.pausesAfter_eq_true_iff (config : RunConfig) {steps : Nat} (h : 0 < steps) :
    config.pausesAfter steps = true ↔ config.interval ∣ steps := by
  unfold pausesAfter interval
  cases config.yieldInterval with
  | none => simp [Nat.ne_of_gt h]
  | some interval =>
    cases interval with
    | zero => simp [Nat.ne_of_gt h]
    | succ n => simp [Nat.dvd_iff_mod_eq_zero]

/-- A pause is counted with the step after which it is made. -/
theorem RunConfig.count_pauses (config : RunConfig) {steps : Nat} (h : 0 < steps) :
    (steps - 1) / config.interval + (config.pausesAfter steps).toNat = steps / config.interval := by
  obtain ⟨s, rfl⟩ := Nat.exists_eq_add_of_lt h
  rw [Nat.zero_add, Nat.add_sub_cancel, Nat.succ_div]
  simp only [← config.pausesAfter_eq_true_iff (Nat.succ_pos s)]
  cases config.pausesAfter (s + 1) <;> rfl

/-! ### Steps that suspend -/

namespace Stepped

/-- The run pauses by itself. -/
def pauses (stepped : Stepped I V X T N H) : Bool :=
  stepped.suspended && !stepped.run.stage.isCalling

/-- The run waits for its handler. -/
def waits (stepped : Stepped I V X T N H) : Bool :=
  stepped.suspended && stepped.run.stage.isCalling

/-- Whoever is suspended pauses or waits. -/
theorem toNat_suspended (stepped : Stepped I V X T N H) :
    stepped.pauses.toNat + stepped.waits.toNat = stepped.suspended.toNat := by
  rw [pauses, waits]
  cases stepped.suspended <;> cases stepped.run.stage.isCalling <;> rfl

end Stepped

/-- A run pauses when it is done with a step, so that the step under way, or the last one, does not count
yet. -/
def Run.Paced (interval pauses : Nat) (run : Run I T N H) : Prop :=
  match run.stage with
  | .reducing _ => pauses = run.stats.steps / interval
  | .dispatching _ _ _ => 0 < run.stats.steps ∧ pauses = (run.stats.steps - 1) / interval
  | .ended _ => pauses = (run.stats.steps - 1) / interval

namespace Executor

variable {executor : Executor I V X T N H} {stats : RunStats} {handler : H} {p : Nat}

private theorem paced_proceed (report : BuildError → Event) (before : List Event)
    (built : Except BuildError (Node I T N) × Store I V X) (hs : 0 < stats.steps)
    (hp : p = (stats.steps - 1) / executor.config.interval) :
    (executor.proceed report stats handler before built).run.Paced executor.config.interval
      (p + (executor.proceed report stats handler before built).pauses.toNat) := by
  obtain ⟨_ | node, store⟩ := built
  · exact hp
  · rw [hp]
    simp only [proceed, Stepped.pauses, Stage.isCalling, Bool.not_false, Bool.and_true]
    exact executor.config.count_pauses hs

private theorem outcome?_proceed (report : BuildError → Event) (before : List Event)
    (built : Except BuildError (Node I T N) × Store I V X)
    (h : (executor.proceed report stats handler before built).suspended = true) :
    (executor.proceed report stats handler before built).run.outcome? = none := by
  obtain ⟨_ | node, store⟩ := built
  · cases h
  · rfl

variable [InstructionSet I]

private theorem paced_pollHandler (issued : Issued I) (next : N) (polls : Nat) (store : Store I V X)
    (before : List Event) (hs : 0 < stats.steps)
    (hp : p = (stats.steps - 1) / executor.config.interval) :
    (executor.pollHandler issued next polls stats handler store before).run.Paced
      executor.config.interval
      (p + (executor.pollHandler issued next polls stats handler store before).pauses.toNat) := by
  simp only [pollHandler]
  split
  · exact ⟨hs, hp⟩
  · exact hp
  · exact paced_proceed _ _ _ hs hp

private theorem outcome?_pollHandler (issued : Issued I) (next : N) (polls : Nat)
    (store : Store I V X) (before : List Event)
    (h : (executor.pollHandler issued next polls stats handler store before).suspended = true) :
    (executor.pollHandler issued next polls stats handler store before).run.outcome? = none := by
  simp only [pollHandler] at h ⊢
  split at h
  · rfl
  · cases h
  · exact outcome?_proceed _ _ _ h

/-- A run keeps its pace in every step. -/
theorem paced_step (executor : Executor I V X T N H) {run : Run I T N H}
    (h : run.Paced executor.config.interval p) (store : Store I V X) :
    (executor.step run store).run.Paced executor.config.interval
      (p + (executor.step run store).pauses.toNat) := by
  obtain ⟨stage, stats, handler⟩ := run
  cases stage with
  | ended outcome => exact h
  | dispatching issued next polls => exact paced_pollHandler issued next polls store [] h.1 h.2
  | reducing node =>
    have hp : p = (stats.steps + 1 - 1) / executor.config.interval := h
    cases node with
    | result value => exact hp
    | delay next =>
      simp only [step, reduce]
      cases executor.config.exceeded? (stats.steps + 1) with
      | some limit => exact hp
      | none => exact paced_proceed _ _ _ (Nat.succ_pos _) hp
    | await issued next =>
      simp only [step, reduce]
      cases executor.config.exceeded? (stats.steps + 1) with
      | some limit => exact hp
      | none => exact paced_pollHandler issued next 0 store _ (Nat.succ_pos _) hp

/-- A run that is suspended is not over. -/
theorem outcome?_of_suspended {run : Run I T N H} {store : Store I V X}
    (h : (executor.step run store).suspended = true) :
    (executor.step run store).run.outcome? = none := by
  obtain ⟨stage, stats, handler⟩ := run
  cases stage with
  | ended outcome => cases h
  | dispatching issued next polls => exact outcome?_pollHandler issued next polls store [] h
  | reducing node =>
    cases node with
    | result value => cases h
    | delay next =>
      simp only [step, reduce] at h ⊢
      split at h
      · cases h
      · exact outcome?_proceed _ _ _ h
    | await issued next =>
      simp only [step, reduce] at h ⊢
      split at h
      · cases h
      · exact outcome?_pollHandler issued next 0 store _ h

/-- Polls a run so many times. The fuel bounds the steps of a single poll. -/
def polled {R : Type} (executor : Executor I V X T N H) (report : R → Event → R) (fuel : Nat) :
    Nat → Run I T N H × Store I V X × R → Run I T N H × Store I V X × R
  | 0, polled => polled
  | n + 1, (run, store, reported) =>
    executor.polled report fuel n (executor.poll report fuel run store reported)

end Executor

/-! ### Two settings with the same limit -/

/-- Two steps differ in nothing but the pause after them and the reports. -/
structure Stepped.Alike (stepped stepped' : Stepped I V X T N H) : Prop where
  run : stepped.run = stepped'.run
  store : stepped.store = stepped'.store
  waits : stepped.waits = stepped'.waits

namespace Executor

variable {c c' : RunConfig} {u : Unfolding I V X T N} {h : Handler I V H} {stats : RunStats}
  {state : H}

private theorem alike_proceed (report : BuildError → Event) (before before' : List Event)
    (built : Except BuildError (Node I T N) × Store I V X) :
    ((⟨c, u, h⟩ : Executor I V X T N H).proceed report stats state before built).Alike
      ((⟨c', u, h⟩ : Executor I V X T N H).proceed report stats state before' built) := by
  obtain ⟨_ | node, store⟩ := built
  · exact ⟨rfl, rfl, rfl⟩
  · refine ⟨rfl, rfl, ?_⟩
    simp only [Stepped.waits, proceed, Stage.isCalling, Bool.and_false]

variable [InstructionSet I]

private theorem alike_pollHandler (issued : Issued I) (next : N) (polls : Nat)
    (store : Store I V X) (before before' : List Event) :
    ((⟨c, u, h⟩ : Executor I V X T N H).pollHandler issued next polls stats state store
        before).Alike
      ((⟨c', u, h⟩ : Executor I V X T N H).pollHandler issued next polls stats state store
        before') := by
  simp only [pollHandler]
  split
  · exact ⟨rfl, rfl, rfl⟩
  · exact ⟨rfl, rfl, rfl⟩
  · exact alike_proceed _ _ _ _

/-- Of the settings only the limit has a part in what a step does. -/
theorem alike_step (hl : c.stepLimit = c'.stepLimit) (run : Run I T N H) (store : Store I V X) :
    ((⟨c, u, h⟩ : Executor I V X T N H).step run store).Alike
      ((⟨c', u, h⟩ : Executor I V X T N H).step run store) := by
  obtain ⟨stage, stats, state⟩ := run
  have he : c'.exceeded? = c.exceeded? := by
    funext steps
    rw [RunConfig.exceeded?, RunConfig.exceeded?, hl]
  cases stage with
  | ended outcome => exact ⟨rfl, rfl, rfl⟩
  | dispatching issued next polls => exact alike_pollHandler issued next polls store _ _
  | reducing node =>
    cases node with
    | result value => exact ⟨rfl, rfl, rfl⟩
    | delay next =>
      simp only [step, reduce, he]
      cases c.exceeded? (stats.steps + 1) with
      | some limit => exact ⟨rfl, rfl, rfl⟩
      | none => exact alike_proceed _ _ _ _
    | await issued next =>
      simp only [step, reduce, he]
      cases c.exceeded? (stats.steps + 1) with
      | some limit => exact ⟨rfl, rfl, rfl⟩
      | none => exact alike_pollHandler issued next 0 store _ _

end Executor

namespace Scene

variable [InstructionSet I] {l : Language I V X T P S} {config c c' : RunConfig}
  {handler : Handler I V H} {scene first : Scene I V X T P S H}

/-! ### Counting suspensions -/

/-- How many turns of the run, among so many turns, end in a step of the given kind. -/
def count (l : Language I V X T P S) (config : RunConfig) (handler : Handler I V H)
    (kind : Stepped I V X T (Thunk V P S) H → Bool) :
    Scene I V X T P S H → List (Turn I V X) → Nat
  | _, [] => 0
  | scene, .own :: turns =>
    (kind ((l.executor config handler).step scene.run scene.store)).toNat +
      count l config handler kind (scene.turn l config handler .own) turns
  | scene, .other deed :: turns =>
    count l config handler kind (scene.turn l config handler (.other deed)) turns

/-- How often the run pauses by itself. -/
def pauses (l : Language I V X T P S) (config : RunConfig) (handler : Handler I V H)
    (scene : Scene I V X T P S H) (turns : List (Turn I V X)) : Nat :=
  scene.count l config handler Stepped.pauses turns

/-- How often the run waits for its handler. -/
def waits (l : Language I V X T P S) (config : RunConfig) (handler : Handler I V H)
    (scene : Scene I V X T P S H) (turns : List (Turn I V X)) : Nat :=
  scene.count l config handler Stepped.waits turns

/-- How often the run alone is suspended in so many turns. -/
def suspensions (l : Language I V X T P S) (config : RunConfig) (handler : Handler I V H)
    (scene : Scene I V X T P S H) (n : Nat) : Nat :=
  scene.pauses l config handler (List.replicate n .own) +
    scene.waits l config handler (List.replicate n .own)

theorem suspensions_succ (scene : Scene I V X T P S H) (n : Nat) :
    scene.suspensions l config handler (n + 1) =
      ((l.executor config handler).step scene.run scene.store).suspended.toNat +
        (scene.turn l config handler .own).suspensions l config handler n := by
  rw [← Stepped.toNat_suspended]
  exact Nat.add_add_add_comm ..

/-- A run keeps its pace, whatever others do between its turns. -/
theorem paced_play {p : Nat} (h : scene.run.Paced config.interval p) (turns : List (Turn I V X)) :
    (scene.play l config handler turns).run.Paced config.interval
      (p + scene.pauses l config handler turns) := by
  induction turns generalizing scene p with
  | nil => exact h
  | cons turn turns ih =>
    cases turn with
    | own =>
      have hp := (l.executor config handler).paced_step h scene.store
      have hs : ((scene.turn l config handler .own).play l config handler turns).run.Paced
          config.interval (p + _ + (scene.turn l config handler .own).pauses l config handler turns) :=
        ih hp
      rwa [Nat.add_assoc] at hs
    | other deed =>
      have ho : (scene.turn l config handler (.other deed)).run.Paced config.interval p := h
      exact ih ho

/-- Of the settings only the limit has a part in what comes of a turn. -/
theorem turn_congr (hl : c.stepLimit = c'.stepLimit) (scene : Scene I V X T P S H)
    (turn : Turn I V X) : scene.turn l c handler turn = scene.turn l c' handler turn := by
  cases turn with
  | other deed => rfl
  | own =>
    have hs : l.stepping c handler scene.run scene.store =
        l.stepping c' handler scene.run scene.store := by
      simp only [Language.stepping, RunConfig.exceeded?, hl]
    obtain ⟨hr, ht, _⟩ := Executor.alike_step (u := l.unfolding) (h := handler) hl scene.run
      scene.store
    simp only [Scene.turn, Language.executor, hs, hr, ht]

theorem play_congr (hl : c.stepLimit = c'.stepLimit) (scene : Scene I V X T P S H)
    (turns : List (Turn I V X)) : scene.play l c handler turns = scene.play l c' handler turns := by
  induction turns generalizing scene with
  | nil => rfl
  | cons turn turns ih =>
    rw [play, List.foldl_cons, turn_congr hl]
    exact ih _

theorem waits_congr (hl : c.stepLimit = c'.stepLimit) (scene : Scene I V X T P S H)
    (turns : List (Turn I V X)) :
    scene.waits l c handler turns = scene.waits l c' handler turns := by
  induction turns generalizing scene with
  | nil => rfl
  | cons turn turns ih =>
    have hn := ih (scene.turn l c' handler turn)
    cases turn with
    | other deed => exact hn
    | own =>
      have hw := (Executor.alike_step (u := l.unfolding) (h := handler) hl scene.run
        scene.store).waits
      simp only [waits, count, Language.executor, hw, turn_congr hl] at hn ⊢
      rw [hn]

/-! ### Polling a run until it is over -/

/-- A poll of a run that is over does nothing. -/
theorem poll_of_outcome? {R : Type} (report : R → Event → R) {outcome : Except RunError T}
    (ho : scene.run.outcome? = some outcome) (fuel : Nat) (reported : R) :
    (l.executor config handler).poll report fuel scene.run scene.store reported =
      (scene.run, scene.store, reported) := by
  obtain ⟨history, ⟨stage, stats, state⟩, store⟩ := scene
  cases stage with
  | reducing _ => cases ho
  | dispatching _ _ _ => cases ho
  | ended _ => cases fuel <;> rfl

/-- A poll begins with a turn, and is over if that suspends the run. -/
private theorem poll_succ {R : Type} (l : Language I V X T P S) (config : RunConfig)
    (handler : Handler I V H) (scene : Scene I V X T P S H) (report : R → Event → R) (fuel : Nat)
    (reported : R) :
    let next := scene.turn l config handler .own
    ∃ reported', (l.executor config handler).poll report (fuel + 1) scene.run scene.store reported =
      if ((l.executor config handler).step scene.run scene.store).suspended then
        (next.run, next.store, reported')
      else (l.executor config handler).poll report fuel next.run next.store reported' := by
  intro next
  have hnext : next.run = ((l.executor config handler).step scene.run scene.store).run ∧
      next.store = ((l.executor config handler).step scene.run scene.store).store := ⟨rfl, rfl⟩
  rw [Executor.poll]
  generalize (l.executor config handler).step scene.run scene.store = stepped at hnext ⊢
  obtain ⟨run, store, events, suspended⟩ := stepped
  obtain ⟨rfl, rfl⟩ : next.run = run ∧ next.store = store := hnext
  refine ⟨events.foldl report reported, ?_⟩
  cases suspended with
  | true => rfl
  | false =>
    cases ho : next.run.outcome? with
    | none => simp only [ho, Option.isSome_none, Bool.or_false]
    | some outcome =>
      simp only [ho, Option.isSome_some, Bool.or_true, if_true, poll_of_outcome? report ho fuel]
      rfl

/-- However often a run is polled, it has taken so many turns. -/
theorem polled_alone {R : Type} (l : Language I V X T P S) (config : RunConfig)
    (handler : Handler I V H) (scene : Scene I V X T P S H) (report : R → Event → R) (fuel n : Nat)
    (reported : R) :
    ∃ m told, (l.executor config handler).polled report fuel n (scene.run, scene.store, reported) =
      ((scene.alone l config handler m).run, (scene.alone l config handler m).store, told) := by
  have once (fuel : Nat) (scene : Scene I V X T P S H) (reported : R) :
      ∃ m told, (l.executor config handler).poll report fuel scene.run scene.store reported =
        ((scene.alone l config handler m).run, (scene.alone l config handler m).store, told) := by
    induction fuel generalizing scene reported with
    | zero => exact ⟨0, reported, rfl⟩
    | succ fuel ih =>
      obtain ⟨told, hp⟩ := poll_succ l config handler scene report fuel reported
      rw [hp]
      split
      · exact ⟨1, told, rfl⟩
      · obtain ⟨m, told, h⟩ := ih (scene.turn l config handler .own) told
        exact ⟨m + 1, told, h⟩
  induction n generalizing scene reported with
  | zero => exact ⟨0, reported, rfl⟩
  | succ n ih =>
    obtain ⟨m, told, h⟩ := once fuel scene reported
    obtain ⟨m', told', h'⟩ := ih (scene.alone l config handler m) told
    refine ⟨m + m', told', ?_⟩
    rw [Executor.polled, h, h', alone_add]

/-- A run is over after one poll and another for every time it is suspended, and not before. The fuel of
the first poll need not be that of the others. -/
private theorem polled_suspensions {R : Type} (report : R → Event → R) {n fuel fuel' : Nat}
    (hn : n ≤ fuel) (hn' : n ≤ fuel') {outcome : Except RunError T}
    (ho : (scene.alone l config handler n).run.outcome? = some outcome) (reported : R) :
    let polled := fun k => (l.executor config handler).polled report fuel k
      ((l.executor config handler).poll report fuel' scene.run scene.store reported)
    (∃ reported', polled (scene.suspensions l config handler n) =
      ((scene.alone l config handler n).run, (scene.alone l config handler n).store, reported')) ∧
    ∀ k, k < scene.suspensions l config handler n → (polled k).1.outcome? = none := by
  intro polled
  induction n generalizing scene fuel' reported with
  | zero => exact ⟨⟨reported, poll_of_outcome? report ho _ _⟩, nofun⟩
  | succ n ih =>
    obtain ⟨fuel', rfl⟩ : ∃ m, fuel' = m + 1 := Nat.exists_eq_succ_of_ne_zero (by omega)
    have hfirst : polled 0 = _ := rfl
    have hmore (k : Nat) : polled k = (l.executor config handler).polled report fuel k (polled 0) :=
      rfl
    rw [suspensions_succ]
    obtain ⟨reported', hp⟩ := poll_succ l config handler scene report fuel' reported
    cases hs : ((l.executor config handler).step scene.run scene.store).suspended with
    | false =>
      rw [hs, if_neg Bool.false_ne_true] at hp
      simp only [Bool.toNat_false, Nat.zero_add, polled, hp]
      exact ih (by omega) (by omega) ho reported'
    | true =>
      rw [hs, if_pos rfl] at hp
      have hmore : n ≤ fuel := by omega
      obtain ⟨h, hbefore⟩ := ih hmore hmore ho reported'
      simp only [Bool.toNat_true, Nat.add_comm 1, polled, hp]
      refine ⟨h, fun k hk => ?_⟩
      cases k with
      | zero => exact Executor.outcome?_of_suspended hs
      | succ k => exact hbefore k (Nat.lt_of_succ_lt_succ hk)

/-- Other settings with the same limit make no difference to a run but in its pauses, and of these there
are as many as the settings say. -/
structure OnlyPausesDiffer (l : Language I V X T P S) (handler : Handler I V H)
    (first : Scene I V X T P S H) (c c' : RunConfig) : Prop where
  /-- Whatever the run and others do, it comes to the same: the same calls of the handler and answers, the
  same outcome, counts and state of the handler, and the same store. -/
  same : ∀ turns, first.play l c handler turns = first.play l c' handler turns
  waits : ∀ turns, first.waits l c handler turns = first.waits l c' handler turns
  divides : ∀ steps, c.pausesAfter? steps = some (c.pausesAfter steps)
  /-- A run that is over did not pause after its last step. -/
  pauses : ∀ {turns outcome}, (first.play l c handler turns).run.outcome? = some outcome →
    ∀ {interval}, c.yieldInterval = some interval → 0 < interval →
      first.pauses l c handler turns =
        ((first.play l c handler turns).run.stats.steps - 1) / interval
  never : c.yieldInterval = none ∨ c.yieldInterval = some 0 →
    ∀ turns, first.pauses l c handler turns = 0
  /-- Whoever polls the run, whatever is made of its reports, finds it over after one poll and another for
  every time it is suspended, and not before. -/
  polled : ∀ {n outcome}, (first.alone l c' handler n).run.outcome? = some outcome →
    ∀ {R : Type} (report : R → Event → R) (reported : R) {fuel : Nat}, n ≤ fuel →
      let polled := fun k => (l.executor c handler).polled report fuel k
        (first.run, first.store, reported)
      (∃ reported', polled (first.suspensions l c handler n + 1) =
        ((first.alone l c' handler n).run, (first.alone l c' handler n).store, reported')) ∧
      ∀ k, k ≤ first.suspensions l c handler n → (polled k).1.outcome? = none

/-- Pauses and reports of steps are invisible, for every program and every handler. -/
theorem only_pauses_differ (hl : c.stepLimit = c'.stepLimit) (l : Language I V X T P S)
    (handler : Handler I V H) (program : P) (state : H) (store : Store I V X) :
    (start l program state store).OnlyPausesDiffer l handler c c' := by
  have hpaced (turns : List (Turn I V X)) :
      ((start l program state store).play l c handler turns).run.Paced c.interval
        ((start l program state store).pauses l c handler turns) := by
    have h : (start l program state store).run.Paced c.interval 0 := (Nat.zero_div _).symm
    have hp : ((start l program state store).play l c handler turns).run.Paced c.interval _ :=
      paced_play h turns
    rwa [Nat.zero_add] at hp
  refine ⟨play_congr hl _, waits_congr hl _, c.pausesAfter?_eq, ?_, ?_, ?_⟩
  · intro turns outcome ho interval hi _
    have h := hpaced turns
    generalize (start l program state store).play l c handler turns = last at ho h ⊢
    obtain ⟨history, ⟨stage, stats, state⟩, store⟩ := last
    cases stage with
    | reducing _ => cases ho
    | dispatching _ _ _ => cases ho
    | ended _ =>
      have hc : c.interval = interval := by rw [RunConfig.interval, hi, Option.getD_some]
      exact hc ▸ h
  · intro hn turns
    have hc : c.interval = 0 := by
      obtain hn | hn := hn <;> rw [RunConfig.interval, hn] <;> rfl
    have h := hpaced turns
    rw [hc, Run.Paced] at h
    simp only [Nat.div_zero] at h
    split at h
    · exact h
    · exact h.2
    · exact h
  · intro n outcome ho R report reported fuel hn polled
    have ha : (start l program state store).alone l c' handler n =
        (start l program state store).alone l c handler n := (play_congr hl _ _).symm
    rw [ha] at ho ⊢
    obtain ⟨h, hbefore⟩ := polled_suspensions report hn hn ho reported
    refine ⟨h, fun k hk => ?_⟩
    cases k with
    | zero => rfl
    | succ k => exact hbefore k hk

open Booking in
/-- A booking that takes four steps and pauses after every other one pauses once. -/
theorem booking_pauses_once :
    let c : RunConfig := ⟨some 2, none, true⟩
    let first : Scene Instruction Answer Unit _ _ _ House := start Sequential.language
      (.direct (tryAccept demo.capacity demo.request)) demo.house (Store.fresh ())
    c.stepLimit = RunConfig.default.stepLimit ∧
      first.OnlyPausesDiffer Sequential.language House.handler c .default ∧
      first.pauses Sequential.language c House.handler (List.replicate 4 .own) = 1 := by
  intro c first
  have hl : c.stepLimit = RunConfig.default.stepLimit := rfl
  have h : first.OnlyPausesDiffer Sequential.language House.handler c .default :=
    only_pauses_differ hl Sequential.language House.handler
      (.direct (tryAccept demo.capacity demo.request)) demo.house (Store.fresh ())
  have he : (first.play Sequential.language c House.handler
      (List.replicate 4 .own)).run.outcome?.isSome := by
    decide +kernel
  obtain ⟨outcome, he⟩ := Option.isSome_iff_exists.mp he
  have hs : (first.play Sequential.language c House.handler (List.replicate 4 .own)).run.stats.steps =
      4 := by
    decide +kernel
  have hc : c.yieldInterval = some 2 := rfl
  have hp := h.pauses he hc (by decide)
  rw [hs] at hp
  exact ⟨hl, h, hp⟩

end Scene

end Trampoline
