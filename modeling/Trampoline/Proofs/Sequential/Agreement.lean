import Trampoline.Proofs.Answers.Others
import Trampoline.Proofs.Sequential.Resumptions

/-!
The two ways of writing a sequential computation agree. Both follow the computation: where it is written
directly the thunk behind each instruction takes the answer out of the cell, and where it is described
the next resumption is given the answer by the request.
-/
namespace Trampoline.Sequential

variable {I V X T H : Type} {k : Nat} {store : Store I V X}

open Happening (Untroubled untroubled_append)

/-- The node of a computation that is written directly. -/
theorem follows_direct (c : Sequential I V T) (store : Store I V X) :
    language.Follows c
      (.ok (language.node (.direct c) store).1, (language.node (.direct c) store).2) := by
  induction c generalizing store with
  | pure value => rfl
  | fail failure => exact .inr rfl
  | perform i next ih =>
    have hb := store.cell_issue_lt i
    refine ⟨(store.issue i).1, .answer (store.issue i).1.cell fun value => .direct (next value),
      rfl, rfl, hb, store.cellAt_issue_self i, fun value => ⟨fun _ _ => List.not_mem_nil, ?_⟩⟩
    change language.Follows _ (language.force _ ((store.issue i).2.putCell _ _))
    rw [Language.force_answer _ hb]
    exact ih value _

/-! ### Descriptions -/

/-- Goes on from what a poll of a request gave. -/
def resumed (r : Nat) (next : V → Sequential I V T) :
    Option (Except CellError V) → Script I V X (Progress T (Resumable I V T))
  | none => .done (.suspended (.waiting r next))
  | some (.error e) => .act (.drop r) fun _ => .done (.failed (.ofCell e))
  | some (.ok value) => .act (.drop r) fun _ => (next value).advance

theorem advance_perform (i : I) (next : V → Sequential I V T) :
    (perform i next).advance (X := X) =
      .act (.request i) fun r => .act (.poll r) (resumed r next) := by
  rw [advance]
  change Script.act (.request i) (fun r => .act (.poll r) _) = _
  congr 1

theorem resume_waiting (r : Nat) (next : V → Sequential I V T) :
    (Resumable.waiting r next).resume (X := X) = .act (.poll r) (resumed r next) := by
  rw [Resumable.resume]
  change Script.act (.poll r) _ = _
  congr 1

/-- A request that was just made gets the slot, and the description waits for it. -/
private theorem run_perform (hc : store.Coherent) (hk : k < store.slots.size)
    (ht : store.taken k = false) (i : I) (next : V → Sequential I V T) :
    ∃ r store', ((perform i next).advance.run k store) = (.suspended (.waiting r next), store') ∧
      Untroubled ((perform i next).advance.happenings k store) ∧ store'.Coherent ∧
      store'.slots.size = store.slots.size ∧ store'.Holds k r i := by
  obtain ⟨hn, -, hh⟩ := Store.poll_of_waits (hc.request hk i) (store.waits_request k i)
  refine ⟨(store.request k i).1, ((store.request k i).2.poll (store.request k i).1).2, ?_, ?_,
    (hc.request hk i).poll _, Store.size_slots_poll _ _, hh ht⟩
  · rw [advance_perform, Script.run_request, Script.run_poll hn]
    rfl
  · rw [advance_perform, Script.happenings_request, Script.happenings_poll hn,
      ← List.singleton_append, untroubled_append, untroubled_append]
    exact ⟨by simp [Untroubled], Store.untroubled_polling (by simp [hn]), fun _ _ => List.not_mem_nil⟩

/-- A request that was answered is dropped, and the description goes on with the answer. -/
private theorem run_waiting (hc : store.Coherent) (ht : store.taken k = false) {r : Nat} {value : V}
    (ha : store.Answered k r value) (next : V → Sequential I V T) :
    ∃ store' : Store I V X, store'.Coherent ∧ store'.slots.size = store.slots.size ∧
      store'.taken k = false ∧
      (Resumable.waiting r next).resume.run k store = (next value).advance.run k store' ∧
      (Untroubled ((next value).advance.happenings k store') →
        Untroubled ((Resumable.waiting r next).resume.happenings k store)) := by
  obtain ⟨hv, hs⟩ := Store.poll_of_answered ha
  have ht' : (store.poll r).2.taken k = false := by
    rw [Store.taken, Store.slotAt, hs]
    exact ht
  refine ⟨(store.poll r).2.drop r, (hc.poll r).drop r, ?_, Store.taken_drop_of_free r ht', ?_, fun h => ?_⟩
  · rw [Store.size_slots_drop, hs]
  · rw [resume_waiting, Script.run_poll hv]
    rfl
  · rw [resume_waiting, Script.happenings_poll hv, resumed, Script.happenings_drop,
      untroubled_append, untroubled_append]
    exact ⟨Store.untroubled_polling (by simp [hv]), Store.untroubled_dropping _ r, h⟩

/-- A description that starts, or goes on, where its slot is free. -/
theorem follows_advance (c : Sequential I V T) (hc : store.Coherent) (hk : k < store.slots.size)
    (ht : store.taken k = false) :
    Untroubled (c.advance.happenings k store) ∧
      language.Follows c (language.concluded k (c.advance.run k store)) := by
  induction c generalizing store with
  | pure value => exact ⟨fun _ _ => List.not_mem_nil, rfl⟩
  | fail failure => exact ⟨fun _ _ => List.not_mem_nil, .inl rfl⟩
  | perform i next ih =>
    obtain ⟨r, store', he, hu, hc', hz, hh⟩ := run_perform hc hk ht i next
    refine ⟨hu, ?_⟩
    rw [he]
    refine Language.follows_suspended hc' hh fun value store₁ hc₁ hz₁ ht₁ ha _ => ?_
    obtain ⟨store₂, hc₂, hz₂, ht₂, he₂, hu₂⟩ := run_waiting hc₁ ht₁ ha next
    obtain ⟨hu₃, hf⟩ := ih value hc₂ (by omega) ht₂
    refine ⟨Language.untroubled_resumption (hu₂ hu₃), ?_⟩
    rw [Language.resumeAt_eq]
    exact he₂ ▸ hf

theorem follows_described (c : Sequential I V T) (hc : store.Coherent) :
    Untroubled (language.forcing (.describe (.fresh c)) store) ∧
      language.Follows c (language.force (.describe (.fresh c)) store) := by
  have hs : store.newSlot.2.slots.size = store.slots.size + 1 := Array.size_push _
  obtain ⟨hu, hf⟩ := follows_advance c hc.newSlot (by omega) store.taken_newSlot
  refine ⟨?_, hf⟩
  rw [Language.forcing, ← List.singleton_append]
  exact untroubled_append.mpr ⟨by simp [Untroubled], Language.untroubled_resumption hu⟩

end Trampoline.Sequential

namespace Trampoline.Scene

open Trampoline.Sequential

variable {I V X T P S H : Type} [InstructionSet I]

/-- What the runs of one computation have in common that is written directly and as a description. The
description is one turn behind, since it begins with a step of its own. -/
structure Agree (plain described : Nat → Scene I V X T P S H) : Prop where
  calls : ∀ n, (described (n + 1)).calls = (plain n).calls
  dealings : ∀ n, (described (n + 1)).dealings = (plain n).dealings
  handler : ∀ n, (described (n + 1)).run.handler = (plain n).run.handler
  /-- Values, errors and their texts are the same, and neither ends if the other does not. -/
  outcome : ∀ outcome, (∃ n, (plain n).run.outcome? = some outcome) ↔
    ∃ n, (described n).run.outcome? = some outcome
  stats : ∀ {m n value value'}, (plain m).run.outcome? = some (.ok value) →
    (described n).run.outcome? = some (.ok value') →
    (described n).run.stats.dispatches = (plain m).run.stats.dispatches ∧
      (described n).run.stats.delays = (plain m).run.stats.delays + 1 ∧
      (described n).run.stats.steps = (plain m).run.stats.steps + 1

/-- Two programs that show the same performance, the second after a step of its own. -/
private theorem agree_of_shows {l : Language I V X T P S} {handler : Handler I V H}
    {c : Sequential I V T} {state : H} {plain described : Nat → Scene I V X T P S H}
    (hp : ∀ n, (plain n).Shows l 0 (c.performed handler state n))
    (hd : ∀ n, (described (n + 1)).Shows l 1 (c.performed handler state n))
    (hps : ∀ {m n outcome}, (plain m).run.outcome? = some outcome → m ≤ n → plain n = plain m)
    (hds : ∀ {m n outcome}, (described m).run.outcome? = some outcome → m ≤ n →
      described n = described m) : Agree plain described where
  calls n := by rw [calls_eq_dealings, calls_eq_dealings, (hd n).dealings, (hp n).dealings]
  dealings n := (hd n).dealings.trans (hp n).dealings.symm
  handler n := (hd n).handler.trans (hp n).handler.symm
  outcome outcome := by
    constructor
    · rintro ⟨n, hn⟩
      exact ⟨n + 2, (hd (n + 1)).outcome? ((hp n).ended_of_outcome? hn)⟩
    · rintro ⟨n, hn⟩
      rw [← hds hn (Nat.le_succ n)] at hn
      exact ⟨n + 1, (hp (n + 1)).outcome? ((hd n).ended_of_outcome? hn)⟩
  stats {m n value value'} hm hn := by
    -- Both runs are looked at once more, when the performance is over as well.
    have hm' := hps hm (Nat.le_succ_of_le (Nat.le_max_left m n))
    have hn' := hds hn (Nat.le_succ_of_le (Nat.le_succ_of_le (Nat.le_max_right m n)))
    have hpoint : (c.performed handler state (max m n + 1)).point = .ended (.ok value) :=
      (hp _).ended_of_outcome? (hps hm (Nat.le_max_left m n) ▸ hm)
    obtain ⟨hdispatches, hdelays, hsteps⟩ := (hp (max m n + 1)).stats_of_ended hpoint
    obtain ⟨hdispatches', hdelays', hsteps'⟩ := (hd (max m n + 1)).stats_of_ended hpoint
    rw [hm'] at hdispatches hdelays hsteps
    rw [hn'] at hdispatches' hdelays' hsteps'
    omega

/-- The two ways of writing a sequential computation agree, for any handler, and wherever in a store that
was used before the runs begin. -/
theorem written_agree (c : Sequential I V T) (config : RunConfig) (handler : Handler I V H)
    (state : H) (shared shared' : X) (before before' : List (Deed I V X)) :
    Agree
      ((start language (.direct c) state (before.foldl Deed.apply (.fresh shared))).alone language
        (config.limited none) handler)
      ((start language (.described c) state (before'.foldl Deed.apply (.fresh shared'))).alone language
        (config.limited none) handler) := by
  have hc := (Store.Coherent.fresh shared').deeds before'
  generalize before.foldl Deed.apply (.fresh shared) = store
  generalize before'.foldl Deed.apply (.fresh shared') = store' at hc ⊢
  obtain ⟨hu, hf⟩ := follows_described c hc
  refine agree_of_shows (shows_performed (follows_direct c store) state) ?_ alone_of_outcome?
    alone_of_outcome?
  exact shows_described rfl hu hf state

end Trampoline.Scene
