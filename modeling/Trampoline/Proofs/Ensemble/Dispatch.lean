import Mathlib.Data.List.Basic
import Trampoline.Proofs.Dispatch.Traced
import Trampoline.Proofs.Ensemble.Kept

/-!
Which handler an instruction goes to, where many programs run side by side: to that of the program whose
description has requested it, however often and by whomever its request is polled, and to that at most
once.
-/
namespace Trampoline

variable {I V X ι : Type}

namespace Happening

/-- The instruction that the handler is called for, if it is the one with the given cell. -/
def calledAt? (c : Nat) : Happening I V → Option (Issued I)
  | called i => if i.cell = c then some i else none
  | _ => none

/-- The request that is made. -/
def requested? : Happening I V → Option Nat
  | requested r => some r
  | _ => none

theorem calledAt?_eq_some_iff {c : Nat} {e : Happening I V} {i : Issued I} :
    e.calledAt? c = some i ↔ e = .called i ∧ i.cell = c := by
  cases e with
  | called j =>
    simp only [calledAt?, Option.ite_none_right_eq_some, Option.some.injEq, called.injEq]
    constructor
    · rintro ⟨hc, rfl⟩
      exact ⟨rfl, hc⟩
    · rintro ⟨rfl, hc⟩
      exact ⟨hc, rfl⟩
  | _ => simp [calledAt?]

/-- In the passage of an instruction there is one call at most. -/
theorem Passage.calls {r k : Nat} {i : Issued I} {moves : List (Happening I V)}
    (h : Passage r i k moves) : (moves.filterMap (calledAt? i.cell)).length ≤ 1 := by
  cases h <;> simp [List.filterMap_cons, calledAt?]

/-- What is no move of an instruction is no call of it. -/
theorem filterMap_passage (r c : Nat) (history : List (Happening I V)) :
    (passage r c history).filterMap (calledAt? c) = history.filterMap (calledAt? c) := by
  rw [passage, List.filterMap_filter]
  congr 1
  funext e
  cases e with
  | called i => by_cases hc : i.cell = c <;> simp [moves, calledAt?, hc]
  | _ => exact ite_self none

end Happening

namespace Cast

variable {c : Cast ι I V X}

namespace State

/-- The requests that were made, and by whom. -/
def requests (st : c.State) : List (ι × Nat) :=
  st.tells Happening.requested?

/-- The calls of all handlers for the instruction with the given cell. -/
def calls (st : c.State) (cell : Nat) : List (ι × Issued I) :=
  st.tells (Happening.calledAt? cell)

theorem mem_requests {st : c.State} {i : ι} {r : Nat} :
    (i, r) ∈ st.requests ↔ (i, .requested r) ∈ st.history := by
  rw [requests, mem_tells]
  constructor
  · rintro ⟨e, he, hr⟩
    cases e with
    | requested s =>
      cases hr
      exact he
    | _ => cases hr
  · exact fun he => ⟨_, he, rfl⟩

theorem mem_calls {st : c.State} {cell : Nat} {i : ι} {issued : Issued I} :
    (i, issued) ∈ st.calls cell ↔ (i, .called issued) ∈ st.history ∧ issued.cell = cell := by
  simp only [calls, mem_tells, Happening.calledAt?_eq_some_iff]
  constructor
  · rintro ⟨_, he, rfl, hc⟩
    exact ⟨he, hc⟩
  · rintro ⟨he, hc⟩
    exact ⟨_, he, rfl, hc⟩

/-- Calls of one handler only are among what its run has heard. -/
private theorem map_calls [DecidableEq ι] {st : c.State} {cell : Nat} {i : ι}
    (h : ∀ j issued, (j, issued) ∈ st.calls cell → j = i) :
    (st.calls cell).map Prod.snd = (st.heard i).filterMap (Happening.calledAt? cell) := by
  rw [calls, tells, heard, List.map_filterMap, List.filterMap_filterMap]
  refine List.filterMap_congr ?_
  rintro ⟨j, e⟩ he
  cases hc : e.calledAt? cell with
  | none => by_cases hi : j = i ∨ e.isAction = true <;> simp [hi, hc]
  | some issued =>
    obtain ⟨rfl, hcell⟩ := Happening.calledAt?_eq_some_iff.mp hc
    obtain rfl := h j issued (mem_calls.mpr ⟨he, hcell⟩)
    simp [hc]

variable {st : c.State} {slot : ι → Option Nat}

/-- Whatever a handler is called for was requested by its own program. -/
theorem Kept.requested_of_called (h : st.Kept slot) {i : ι} {issued : Issued I}
    (hm : (i, .called issued) ∈ st.history) :
    ∃ r q, (i, r) ∈ st.requests ∧ st.store.requests[r]? = some q ∧ q.issued = issued ∧
      slot i = some q.slot := by
  obtain ⟨k, hk, r, ho⟩ := h.told hm
  rw [Store.origins, Array.getElem?_map, Option.map_eq_some_iff] at ho
  obtain ⟨q, hq, ⟨⟩⟩ := ho
  exact ⟨r, q, mem_requests.mpr (h.requested_iff.mpr ⟨q, hq, hk⟩), hq, rfl, hk⟩

end State

variable [DecidableEq ι] [InstructionSet I]

/-- An instruction is dispatched by nobody else than the program that has requested it, and at most
once. -/
theorem calls_of_requested (c : Cast ι I V X) (shared : X) (schedule : List ι) {i : ι} {r : Nat}
    (hr : (i, r) ∈ (c.play shared schedule).requests) :
    ∃ q, (c.play shared schedule).store.requests[r]? = some q ∧
      ((c.play shared schedule).calls q.issued.cell = [] ∨
        (c.play shared schedule).calls q.issued.cell = [(i, q.issued)]) := by
  obtain ⟨slot, h⟩ := c.kept shared schedule
  obtain ⟨q, hq, hk⟩ := h.requested_iff.mp (State.mem_requests.mp hr)
  have hone {j : ι} {issued : Issued I}
      (hm : (j, issued) ∈ (c.play shared schedule).calls q.issued.cell) :
      j = i ∧ issued = q.issued := by
    obtain ⟨hm, hc⟩ := State.mem_calls.mp hm
    obtain ⟨s, p, _, hp, rfl, hj⟩ := h.requested_of_called hm
    obtain rfl := h.coherent.cell_inj hp hq hc
    obtain rfl := Option.some.inj (hp.symm.trans hq)
    exact ⟨h.slot_inj hj hk, rfl⟩
  have hlen : ((c.play shared schedule).calls q.issued.cell).length ≤ 1 := by
    have ht := c.steady_part (Traced.steady r (q.issued, q.slot))
      (.start (.fresh shared) (Nat.zero_le _)) schedule (i := i) fun j hj hm =>
        hj (h.slot_inj (h.opened_iff.mp hm) hk)
    have hp := (ht.tracked (Store.view_eq hq) rfl).track.passes.calls
    rw [Happening.filterMap_passage, ← State.map_calls fun j issued hm => (hone hm).1,
      List.length_map] at hp
    exact hp
  refine ⟨q, hq, ?_⟩
  generalize (c.play shared schedule).calls q.issued.cell = calls at hone hlen
  rcases calls with _ | ⟨⟨j, issued⟩, _ | ⟨_, rest⟩⟩
  · exact .inl rfl
  · obtain ⟨rfl, rfl⟩ := hone List.mem_cons_self
    exact .inr rfl
  · simp at hlen

end Cast

end Trampoline
