import Trampoline.Proofs.Answers.Others
import Trampoline.Proofs.Nested.Descriptions

/-!
The run of a nested description is the performance of its sequential reading. In every resumption the
request that is next in the reading gets the slot, so that a join carries out its branches one after the
other, and no instruction of a branch that loses a race ever reaches the handler.
-/
namespace Trampoline

variable {I V X T P S H : Type} {k : Nat} {store : Store I V X}

open Happening (Untroubled untroubled_append)
open Trampoline.Sequential (Performance)

namespace Nested

/-- What is not finished is suspended. -/
private theorem progress_of_none {a : Activity I V T} (h : a.result? = none) :
    Resumable.progress a = .suspended (.begun a) := by
  cases a with
  | finished _ => cases h
  | waiting _ _ => rfl
  | joining _ _ => rfl
  | racing _ _ _ => rfl

/-- A resumption polls the description and says what has come of it. -/
private theorem run_resume (rest : Resumable I V T) {script : Script I V X (Activity I V T)}
    (hr : rest.resume = script.bind fun a => .done (Resumable.progress a)) (k : Nat)
    (store : Store I V X) :
    (language.resume rest).run k store =
        (Resumable.progress (script.run k store).1, (script.run k store).2) ∧
      (language.resume rest).happenings k store = script.happenings k store := by
  change rest.resume.run k store = _ ∧ rest.resume.happenings k store = _
  rw [hr, Script.run_bind, Script.happenings_bind, Script.happenings, List.append_nil]
  exact ⟨rfl, rfl⟩

/-- What is built in the end of a resumption that found its slot free. -/
theorem follows_of_went {c : Sequential I V (Except Failure T)} {mine : List Nat}
    {events : List (Happening I V)} {left : Activity I V T × Store I V X}
    (h : Went Activity.outlook k store mine events left c) (hk : k < store.slots.size)
    (ht : store.taken k = false) :
    language.Follows (c.bind conclude)
      (language.concluded k (Resumable.progress left.1, left.2)) := by
  induction c generalizing store mine events left with
  | pure result =>
    rw [Activity.eq_finished h.value]
    cases result with
    | ok value => rfl
    | error failure => exact .inl rfl
  | fail failure =>
    obtain ⟨i, next, r, hp, _⟩ := h.head ht rfl
    cases hp
  | perform i next ih =>
    obtain ⟨i, next, r, hp, hh⟩ := h.head ht rfl
    cases hp
    rw [progress_of_none h.value]
    refine Language.follows_suspended h.frame.coherent hh.holds fun value store' hc hz ht' ha hv => ?_
    have hk' : k < store'.slots.size := by
      rw [hz, h.frame.slots]
      exact hk
    have hq : ∀ s ∈ left.1.owned, store'.Quiet k s := by
      intro s hs
      by_cases hne : s = r
      · exact hne ▸ .inr ⟨value, ha⟩
      · exact (hh.quiet s hs hne).congr (hv s hne)
    have he : left.1.rest store'.due? = next value :=
      hh.rest (fun s _ hne => Store.due?_congr (hv s hne)) (Store.due?_of_answered ha)
    have hg := left.1.poll_goes hc hk' hq h.nodup
    rw [he] at hg
    obtain ⟨hrun, hhappenings⟩ := run_resume (.begun left.1) rfl k store'
    refine ⟨Language.untroubled_resumption (hhappenings ▸ hg.untroubled), ?_⟩
    rw [Language.resumeAt_eq, hrun]
    exact ih value hg hk' ht'

/-- A description from its first resumption on. -/
theorem follows_sequential (d : Nested I V T) (hc : store.Coherent) :
    Untroubled (language.forcing (.describe (.fresh d)) store) ∧
      language.Follows d.sequential (language.force (.describe (.fresh d)) store) := by
  have hk : store.slots.size < store.newSlot.2.slots.size := by
    rw [Store.newSlot, Array.size_push]
    exact Nat.lt_succ_self _
  have hg := d.start_goes hc.newSlot hk
  obtain ⟨hrun, hhappenings⟩ :=
    run_resume (.fresh d) rfl store.slots.size store.newSlot.2
  constructor
  · rw [Language.forcing, ← List.singleton_append]
    exact untroubled_append.mpr
      ⟨by simp [Untroubled], Language.untroubled_resumption (hhappenings ▸ hg.untroubled)⟩
  · change language.Follows _ (language.resumeAt store.slots.size (.fresh d) store.newSlot.2)
    rw [Language.resumeAt_eq, hrun]
    exact follows_of_went hg hk store.taken_newSlot

end Nested

namespace Scene

variable [InstructionSet I]

/-- A run is the performance of a sequential computation, which it is one turn behind: a description
begins with a step of its own. -/
structure Performs (run : Nat → Scene I V X T P S H) (performance : Nat → Performance I V T H) :
    Prop where
  /-- The same instructions go to the handler in the same order, with the same answers. -/
  dealings : ∀ n, (run (n + 1)).dealings = (performance n).dealings
  handler : ∀ n, (run (n + 1)).run.handler = (performance n).handler
  outcome : ∀ outcome, (∃ n, (run n).run.outcome? = some outcome) ↔
    ∃ n, (performance n).point = .ended outcome
  not_foreign : ∀ n, (run n).run.outcome? ≠ some (.error (.build .foreignSuspension))
  /-- The description is never shown an error of a cell. -/
  untroubled : ∀ n r e, .polled r (some (.error e)) ∉ (run n).history

/-- Joins and races are sequentialised from left to right, however deep they are nested, for any handler,
and wherever in a store that was used before the run begins. -/
theorem nested_performs (d : Nested I V T) (config : RunConfig) (handler : Handler I V H) (state : H)
    (shared : X) (before : List (Deed I V X)) :
    Performs
      ((start Nested.language d state (before.foldl Deed.apply (.fresh shared))).alone Nested.language
        (config.limited none) handler)
      (d.sequential.performed handler state) := by
  have hc := (Store.Coherent.fresh shared).deeds before
  generalize before.foldl Deed.apply (.fresh shared) = store at hc ⊢
  obtain ⟨hu, hf⟩ := d.follows_sequential hc
  have hs (n : Nat) : ((start Nested.language d state store).alone Nested.language
      (config.limited none) handler (n + 1)).Shows Nested.language 1
      (d.sequential.performed handler state n) :=
    shows_described rfl hu hf state n
  have ended {n : Nat} {outcome : Except RunError T}
      (ho : ((start Nested.language d state store).alone Nested.language (config.limited none) handler
        n).run.outcome? = some outcome) :
      (d.sequential.performed handler state (n + 1)).point = .ended outcome :=
    (hs n).ended_of_outcome? (alone_of_outcome? ho (Nat.le_succ n) ▸ ho)
  constructor
  case dealings => exact fun n => (hs n).dealings
  case handler => exact fun n => (hs n).handler
  case outcome =>
    intro outcome
    constructor
    · rintro ⟨n, ho⟩
      exact ⟨n + 1, ended ho⟩
    · rintro ⟨n, ho⟩
      exact ⟨n + 1, (hs n).outcome? ho⟩
  case not_foreign => exact fun n ho => Sequential.ne_foreign_of_performed handler (ended ho) rfl
  case untroubled =>
    intro n r e
    cases n with
    | zero => exact List.not_mem_nil
    | succ n => exact (hs n).untroubled r e

end Scene

end Trampoline
