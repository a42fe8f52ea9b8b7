import Trampoline.Proofs.Ensemble.Opaque
import Trampoline.Proofs.Runs.Reductions

/-!
The run of a description among others, and the run of the same description by itself. As long as others leave
its requests alone, and it theirs, the two stand at the same place after equally many turns: they have
called their handlers for the same instructions, have counted the same, and come to the same end.
-/
namespace Trampoline

variable {I V X T P S H : Type}

open Store (Mirror Paired)

/-- Two runs stand at the same place, each with its own store. -/
inductive Stage.Mimics (same : Names → S → S → Prop) (alike : Names → X → X → Prop)
    (store store' : Store I V X) : Stage I T (Thunk V P S) → Stage I T (Thunk V P S) → Prop
  | fresh {s s' : S} : same [] s s' → alike [] store.shared store'.shared →
      Mimics same alike store store' (.reducing (.delay (.describe s)))
        (.reducing (.delay (.describe s')))
  | awaiting {names : Names} {k k' : Nat} {i i' : Issued I} {rest rest' : S} :
      Mirror names k k' store store' → alike names store.shared store'.shared →
      Paired names k k' store store' i i' → same names rest rest' →
      Mimics same alike store store' (.reducing (.await i (.resume k rest)))
        (.reducing (.await i' (.resume k' rest')))
  | calling {names : Names} {k k' : Nat} {i i' : Issued I} {rest rest' : S} (polls : Nat) :
      Mirror names k k' store store' → alike names store.shared store'.shared →
      Paired names k k' store store' i i' → same names rest rest' →
      Mimics same alike store store' (.dispatching i (.resume k rest) polls)
        (.dispatching i' (.resume k' rest') polls)
  | returned (value : T) :
      Mimics same alike store store' (.reducing (.result value)) (.reducing (.result value))
  | ended (outcome : Except RunError T) :
      Mimics same alike store store' (.ended outcome) (.ended outcome)

theorem Stage.Mimics.outcome? {same : Names → S → S → Prop} {alike : Names → X → X → Prop}
    {store store' : Store I V X} {run run' : Run I T (Thunk V P S) H}
    (h : Stage.Mimics same alike store store' run.stage run'.stage) :
    run.outcome? = run'.outcome? := by
  rw [Run.outcome?, Run.outcome?]
  generalize run.stage = stage, run'.stage = stage' at h
  cases h <;> rfl

/-- Two runs have done the same and go on alike. -/
structure Scene.Mimics (same : Names → S → S → Prop) (alike : Names → X → X → Prop)
    (scene scene' : Scene I V X T P S H) : Prop where
  stage : Stage.Mimics same alike scene.store scene'.store scene.run.stage scene'.run.stage
  stats : scene.run.stats = scene'.run.stats
  handler : scene.run.handler = scene'.run.handler
  calls : scene.calls = scene'.calls

variable {l : Language I V X T P S} {mine : Nat → Prop} {same : Names → S → S → Prop}
  {alike : Names → X → X → Prop}

/-- Both descriptions are resumed. -/
theorem Language.Opaque.mimics_resumeAt (hl : l.Opaque mine same alike) {names : Names} {k k' : Nat}
    {store store' : Store I V X} {s s' : S} (hm : Mirror names k k' store store')
    (hx : alike names store.shared store'.shared) (hs : same names s s')
    (hmine : ∀ e ∈ l.resumption k s store, e.Minds mine) :
    Stage.Mimics same alike (l.resumeAt k s store).2 (l.resumeAt k' s' store').2
      (Stage.built (l.resumeAt k s store).1) (Stage.built (l.resumeAt k' s' store').1) := by
  obtain ⟨names', hm', hx', hp⟩ := (hl.resume hs).run hl.mono hm hx fun e he => by
    refine hmine e ?_
    rw [Language.resumption]
    exact List.mem_append_left _ he
  unfold Language.resumeAt
  generalize (l.resume s).run k store = resumed, (l.resume s').run k' store' = resumed' at hm' hx' hp ⊢
  obtain ⟨progress, resumed⟩ := resumed
  obtain ⟨progress', resumed'⟩ := resumed'
  have hm' : Mirror names' k k' resumed resumed' := hm'
  have hx' : alike names' resumed.shared resumed'.shared := hx'
  have hp : progress.Alike same names' progress' := hp
  cases hp with
  | finished value => exact .returned value
  | failed failure => exact .ended _
  | suspended hs =>
    obtain ⟨hi, hi'⟩ | ⟨i, i', hi, hi', hpair⟩ := hm'.collected
    · simp only [hi, hi']
      exact .ended _
    · simp only [hi, hi']
      have ho : resumed.Recalls (resumed.collect k).2 := (resumed.origins_collect k).symm ▸ id
      have ho' : resumed'.Recalls (resumed'.collect k').2 := (resumed'.origins_collect k').symm ▸ id
      exact .awaiting hm'.collect (by rwa [resumed.shared_collect, resumed'.shared_collect])
        (hpair.recalled ho ho') hs

namespace Scene

variable [InstructionSet I] {config : RunConfig} {handler : Handler I V H}
  {history history' : List (Happening I V)} {stats : RunStats} {state : H}
  {store store' : Store I V X} {scene scene' : Scene I V X T P S H}

/-- The run and the run by itself, as far as it makes a difference how they go on. -/
private def Abreast (same : Names → S → S → Prop) (alike : Names → X → X → Prop)
    (scene scene' : Scene I V X T P S H) : Prop :=
  Stage.Mimics same alike scene.store scene'.store scene.run.stage scene'.run.stage ∧
    scene.run.stats = scene'.run.stats ∧ scene.run.handler = scene'.run.handler

section Calls

variable {names : Names} {k k' : Nat} {i i' : Issued I} {rest rest' : S}

private theorem abreast_settled (hl : l.Opaque mine same alike) (hm : Mirror names k k' store store')
    (hx : alike names store.shared store'.shared) (hp : Paired names k k' store store' i i')
    (hs : same names rest rest') (reply : Except Failure V)
    (hmine : ∀ e ∈ (settled l history i (.resume k rest) stats store reply state).history,
      e.Minds mine) :
    Abreast same alike (settled l history i (.resume k rest) stats store reply state)
      (settled l history' i' (.resume k' rest') stats store' reply state) := by
  obtain ⟨hi, hc⟩ := hp.alike hm
  cases reply with
  | error failure =>
    refine ⟨?_, rfl, rfl⟩
    simp only [settled, hi]
    exact .ended _
  | ok value =>
    rw [settled] at hmine ⊢
    rw [settled, ← hc, ← hi]
    cases hset : (store.cellAt i.cell).set value with
    | error e => exact ⟨.ended _, rfl, rfl⟩
    | ok full =>
      rw [hset] at hmine
      refine ⟨hl.mimics_resumeAt (hp.putCell hm full) hx hs fun e he => hmine e ?_, rfl, rfl⟩
      exact List.mem_append_right _ (List.mem_cons_of_mem _ he)

private theorem abreast_polled (hl : l.Opaque mine same alike) (hm : Mirror names k k' store store')
    (hx : alike names store.shared store'.shared) (hp : Paired names k k' store store' i i')
    (hs : same names rest rest') (polls : Nat) (hb : i.cell < store.cells.size)
    (hb' : i'.cell < store'.cells.size)
    (hmine : ∀ e ∈ (turn l config handler
      ⟨history, ⟨.dispatching i (.resume k rest) polls, stats, state⟩, store⟩ .own).history,
      e.Minds mine) :
    Abreast same alike
      (turn l config handler ⟨history, ⟨.dispatching i (.resume k rest) polls, stats, state⟩, store⟩
        .own)
      (turn l config handler
        ⟨history', ⟨.dispatching i' (.resume k' rest') polls, stats, state⟩, store'⟩ .own) := by
  obtain ⟨hi, hc⟩ := hp.alike hm
  rw [turn_polled hb] at hmine ⊢
  rw [turn_polled hb', ← hi, ← hc]
  generalize handler.poll i.instruction polls state (store.cellAt i.cell) = polled at hmine ⊢
  obtain ⟨reply, state', cell, events⟩ := polled
  cases reply with
  | pending => exact ⟨.calling (polls + 1) (hp.putCell hm cell) hx hp hs, rfl, rfl⟩
  | refused failure => exact abreast_settled hl (hp.putCell hm cell) hx hp hs _ hmine
  | answered value => exact abreast_settled hl (hp.putCell hm cell) hx hp hs _ hmine

end Calls

omit [InstructionSet I] in
/-- The handlers are called for the same instruction in the next turn, or both are not called. -/
private theorem Mimics.calls_reduces (h : scene.Mimics same alike scene') (config : RunConfig) :
    (scene.reduces? config).toList.filterMap Node.call? =
      (scene'.reduces? config).toList.filterMap Node.call? := by
  obtain ⟨history, ⟨stage, stats, state⟩, store⟩ := scene
  obtain ⟨history', ⟨stage', stats', state'⟩, store'⟩ := scene'
  obtain ⟨hstage, hst, _, _⟩ := h
  obtain rfl : stats = stats' := hst
  cases hstage with
  | awaiting hm _ hp _ =>
    simp only [reduces?]
    cases config.exceeded? (stats.steps + 1) with
    | some limit => rfl
    | none => exact congrArg (fun i => [i]) (hp.alike hm).1
  | fresh =>
    simp only [reduces?]
    cases config.exceeded? (stats.steps + 1) <;> rfl
  | calling => rfl
  | returned value => rfl
  | ended outcome => rfl

/-- One turn of both runs. -/
theorem Mimics.own (h : scene.Mimics same alike scene') (hl : l.Opaque mine same alike)
    (hs : scene.Sound) (hs' : scene'.Sound)
    (hmine : ∀ e ∈ (scene.turn l config handler .own).history, e.Minds mine) :
    (scene.turn l config handler .own).Mimics same alike (scene'.turn l config handler .own) := by
  suffices ha : Abreast same alike (scene.turn l config handler .own)
      (scene'.turn l config handler .own) from
    ⟨ha.1, ha.2.1, ha.2.2, by
      rw [calls_turn, calls_turn, h.calls, h.calls_reduces]⟩
  obtain ⟨history, ⟨stage, stats, state⟩, store⟩ := scene
  obtain ⟨history', ⟨stage', stats', state'⟩, store'⟩ := scene'
  obtain ⟨hstage, hst, hh, _⟩ := h
  obtain rfl : stats = stats' := hst
  obtain rfl : state = state' := hh
  cases hstage with
  | ended outcome =>
    rw [turn_ended, turn_ended]
    exact ⟨.ended _, rfl, rfl⟩
  | returned value =>
    rw [turn_result, turn_result]
    exact ⟨.ended _, rfl, rfl⟩
  | fresh hsame hx =>
    cases he : config.exceeded? (stats.steps + 1) with
    | some limit =>
      rw [turn_exceeded he (.inl rfl), turn_exceeded he (.inl rfl)]
      exact ⟨.ended _, rfl, rfl⟩
    | none =>
      rw [turn_delay he] at hmine ⊢
      rw [turn_delay he]
      refine ⟨hl.mimics_resumeAt (.start hs.coherent hs'.coherent) hx hsame fun e hm => hmine e ?_,
        rfl, rfl⟩
      exact List.mem_append_right _ (List.mem_cons_of_mem _ hm)
  | awaiting hm hx hp hsame =>
    cases he : config.exceeded? (stats.steps + 1) with
    | some limit =>
      rw [turn_exceeded he (.inr ⟨_, rfl⟩), turn_exceeded he (.inr ⟨_, rfl⟩)]
      exact ⟨.ended _, rfl, rfl⟩
    | none =>
      rw [turn_await he] at hmine ⊢
      rw [turn_await he]
      exact abreast_polled hl hm hx hp hsame 0 (hs.hand_lt rfl) (hs'.hand_lt rfl) hmine
  | calling polls hm hx hp hsame =>
    exact abreast_polled hl hm hx hp hsame polls (hs.hand_lt rfl) (hs'.hand_lt rfl) hmine

end Scene

end Trampoline
