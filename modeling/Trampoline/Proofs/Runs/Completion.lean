import Trampoline.Proofs.Runs.Reductions

/-!
Handlers whose calls all come to an end. A run against such a handler that never ends goes on reducing
nodes for ever.
-/
namespace Trampoline

variable {I V X T N P S H : Type}

/-- A call that was polled so many times comes to an end. -/
inductive Handler.Finishes (handler : Handler I V H) (i : I) : Nat → H → Cell V → Prop
  | done {polls : Nat} {state : H} {cell : Cell V} :
      (handler.poll i polls state cell).reply ≠ .pending → Finishes handler i polls state cell
  | later {polls : Nat} {state : H} {cell : Cell V} :
      (handler.poll i polls state cell).reply = .pending →
      Finishes handler i (polls + 1) (handler.poll i polls state cell).state
        (handler.poll i polls state cell).cell →
      Finishes handler i polls state cell

/-- Every call comes to an end. -/
def Handler.Completes (handler : Handler I V H) : Prop :=
  ∀ i state cell, handler.Finishes i 0 state cell

/-- The house of bookings answers at once. -/
theorem Booking.House.completes : House.handler.Completes := by
  intro i house cell
  refine .done ?_
  simp only [House.handler]
  split <;>
    · intro h
      cases h

/-- Whether the handler is at work on an instruction. -/
def Stage.isCalling : Stage I T N → Bool
  | .dispatching _ _ _ => true
  | .reducing _ => false
  | .ended _ => false

namespace Scene

variable [InstructionSet I] {l : Language I V X T P S} {config : RunConfig}
  {handler : Handler I V H} {history : List (Happening I V)} {stats : RunStats} {state : H}
  {store : Store I V X} {first : Scene I V X T P S H}

omit [InstructionSet I] in
private theorem isCalling_built (built : Except BuildError (Node I T N)) :
    (Stage.built built).isCalling = false := by
  cases built <;> rfl

private theorem isCalling_settled (issued : Issued I) (next : Thunk V P S)
    (reply : Except Failure V) :
    (settled l history issued next stats store reply state).run.stage.isCalling = false := by
  cases reply with
  | error failure => rfl
  | ok value =>
    rw [settled]
    split
    · exact isCalling_built _
    · rfl

/-- A call that comes to an end is left after some turns. -/
theorem done_of_finishes {issued : Issued I} {polls : Nat} {cell : Cell V}
    (hf : handler.Finishes issued.instruction polls state cell)
    (hb : issued.cell < store.cells.size) (hc : store.cellAt issued.cell = cell)
    (next : Thunk V P S) :
    ∃ n, (alone l config handler
      ⟨history, ⟨.dispatching issued next polls, stats, state⟩, store⟩ (n + 1)).run.stage.isCalling =
        false := by
  induction hf generalizing store with
  | @done polls state cell hr =>
    refine ⟨0, ?_⟩
    change (turn l config handler _ .own).run.stage.isCalling = false
    rw [turn_polled hb, hc]
    split
    · rename_i hp
      rw [hp] at hr
      exact absurd rfl hr
    · exact isCalling_settled issued next _
    · exact isCalling_settled issued next _
  | @later polls state cell hr _ ih =>
    have ht : turn l config handler
        ⟨history, ⟨.dispatching issued next polls, stats, state⟩, store⟩ .own = _ :=
      turn_polled hb next polls
    rw [hc] at ht
    generalize handler.poll issued.instruction polls state cell = polled at hr ih ht
    obtain ⟨reply, state', cell', events⟩ := polled
    obtain rfl : reply = .pending := hr
    obtain ⟨n, hn⟩ := @ih (store.putCell issued.cell cell') (by simpa [Store.putCell] using hb)
      (Store.cellAt_putCell_self cell' hb)
    refine ⟨n + 1, ?_⟩
    change (alone l config handler (turn l config handler _ .own) (n + 1)).run.stage.isCalling =
      false
    rw [ht]
    exact hn

/-- A run that never ends has any number of reductions in the end. -/
theorem exists_le_reductions (hh : handler.Completes) (h : first.Sound)
    (hs : first.run.stage.isCalling = false)
    (he : ∀ n, (first.alone l (config.limited none) handler n).run.outcome? = none) (m : Nat) :
    ∃ n, m ≤ (first.reductions l (config.limited none) handler n).length ∧
      (first.alone l (config.limited none) handler n).run.stage.isCalling = false := by
  induction m with
  | zero => exact ⟨0, Nat.zero_le _, hs⟩
  | succ m ih =>
    obtain ⟨n, hm, hn⟩ := ih
    have hsound : (first.alone l (config.limited none) handler n).Sound := h.alone n
    have hgoes := he n
    have hnext := he (n + 1)
    rw [alone_succ] at hnext
    -- In each case the node at which the run stands is one more reduction.
    suffices hk : ∃ k, ((first.alone l (config.limited none) handler n).alone l
          (config.limited none) handler (k + 1)).run.stage.isCalling = false ∧
        ((first.alone l (config.limited none) handler n).reduces? (config.limited none)).isSome by
      obtain ⟨k, hk, hr⟩ := hk
      refine ⟨n + (k + 1), ?_, by rwa [alone_add]⟩
      obtain ⟨node, hr⟩ := Option.isSome_iff_exists.mp hr
      have hmono : (first.reductions l (config.limited none) handler (n + 1)).length ≤ _ :=
        (reductions_mono first (n + 1) k).length_le
      rw [reductions, hr, List.length_append] at hmono
      rw [Nat.add_comm k 1, ← Nat.add_assoc]
      exact Nat.le_trans (Nat.succ_le_succ hm) hmono
    generalize first.alone l (config.limited none) handler n = scene at hn hsound hgoes hnext
    obtain ⟨history, ⟨stage, stats, state⟩, store⟩ := scene
    cases stage with
    | ended outcome => cases hgoes
    | dispatching issued next polls => cases hn
    | reducing node =>
      cases node with
      | result value =>
        rw [turn_result] at hnext
        cases hnext
      | delay next =>
        refine ⟨0, ?_, rfl⟩
        change (turn l (config.limited none) handler _ .own).run.stage.isCalling = false
        rw [turn_delay rfl]
        exact isCalling_built _
      | await issued next =>
        obtain ⟨k, hk⟩ := done_of_finishes (hh issued.instruction state (store.cellAt issued.cell))
          (hsound.hand_lt rfl) rfl next
        refine ⟨k, ?_, rfl⟩
        have ht : turn l (config.limited none) handler
            ⟨history, ⟨.reducing (.await issued next), stats, state⟩, store⟩ .own = _ :=
          turn_await rfl issued next
        change (alone l (config.limited none) handler
          (turn l (config.limited none) handler _ .own) k).run.stage.isCalling = false
        rw [ht]
        exact hk

end Scene

end Trampoline
