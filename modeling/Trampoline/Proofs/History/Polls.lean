import Trampoline.Proofs.History.Basic

/-!
What is told of polls and drops, in terms of the requests that are polled and dropped.
-/
namespace Trampoline.Store

variable {I V X : Type} {store : Store I V X}

theorem alive_eq {r : Nat} {q : Request I} (hq : store.requests[r]? = some q) :
    store.alive r = !q.dropped := by
  rw [alive, hq]

theorem issues?_eq {r : Nat} {q : Request I} (hq : store.requests[r]? = some q) :
    store.issues? r =
      if q.dropped = false ∧ q.instruction.isSome ∧ (store.slotAt q.slot).pending.isNone then
        some q.slot
      else none := by
  rw [issues?, hq]

theorem withdraws?_eq {r : Nat} {q : Request I} (hq : store.requests[r]? = some q) :
    store.withdraws? r = if store.holding q then some q.slot else none := by
  rw [withdraws?, hq]

theorem alive_of_not_dropped {r : Nat} {q : Request I} (hq : store.requests[r]? = some q)
    (hd : q.dropped = false) : store.alive r = true := by
  rw [alive_eq hq, hd]
  rfl

theorem alive_of_standing {r : Nat} {q : Request I} (hq : store.requests[r]? = some q)
    (hs : q.standing ≠ .dropped) : store.alive r = true :=
  alive_of_not_dropped hq (Request.standing_ne_dropped_iff.mp hs)

theorem alive_of_dropped {r : Nat} {q : Request I} (hq : store.requests[r]? = some q)
    (hs : q.standing = .dropped) : store.alive r = false := by
  rw [alive_eq hq, Request.standing_eq_dropped_iff.mp hs]
  rfl

theorem exists_of_alive {r : Nat} (h : store.alive r = true) :
    ∃ q, store.requests[r]? = some q ∧ q.dropped = false := by
  unfold alive at h
  split at h
  · exact ⟨_, ‹_›, by simpa using h⟩
  · cases h

/-- Nothing comes of a poll that finds no request. -/
theorem poll_of_not_alive {r : Nat} (h : store.alive r = false) :
    store.poll r = (none, store) := by
  cases hq : store.requests[r]? with
  | none => simp only [poll, hq]
  | some q => exact poll_of_dropped hq (by simpa [alive_eq hq] using h)

theorem drop_of_not_alive {r : Nat} (h : store.alive r = false) :
    store.drop r = store := by
  cases hq : store.requests[r]? with
  | none => exact drop_of_none hq
  | some q => exact drop_of_dropped hq (by simpa [alive_eq hq] using h)

/-- Only a request that still has its instruction takes the slot, and only if it is free. -/
theorem issues?_eq_none {r : Nat} {q : Request I} (hq : store.requests[r]? = some q)
    (h : ∀ i, q.dropped = false → q.instruction = some i → (store.slotAt q.slot).pending ≠ none) :
    store.issues? r = none := by
  rw [issues?_eq hq, if_neg]
  rintro ⟨hd, hi, hp⟩
  obtain ⟨i, hi⟩ := Option.isSome_iff_exists.mp hi
  exact h i hd hi (Option.isNone_iff_eq_none.mp hp)

theorem issues?_eq_some {r : Nat} {q : Request I} {i : Issued I} (hq : store.requests[r]? = some q)
    (hd : q.dropped = false) (hi : q.instruction = some i)
    (hp : (store.slotAt q.slot).pending = none) : store.issues? r = some q.slot := by
  rw [issues?_eq hq, if_pos ⟨hd, by rw [hi]; rfl, by rw [hp]; rfl⟩]

/-- What is told of a poll, and what it does to the store. -/
inductive Told (store : Store I V X) (r : Nat) : List (Happening I V) → Store I V X → Prop
  /-- There is no such request, or no such request any more. -/
  | gone : (∀ q, store.requests[r]? = some q → q.dropped = true) → Told store r [] store
  | waits (q : Request I) : store.requests[r]? = some q → q.dropped = false →
      Told store r [.polled r none] store
  | issued (q : Request I) (i : Issued I) : store.requests[r]? = some q → q.dropped = false →
      q.instruction = some i → (store.slotAt q.slot).pending = none →
      Told store r [.polled r none, .issued q.slot r] (store.occupy r q i)
  | read (q : Request I) (answer : Except CellError V) (cell : Cell V) :
      store.requests[r]? = some q → q.dropped = false → q.instruction = none →
      store.holding q = false →
      Told store r [.polled r (some answer)] (store.putCell q.issued.cell cell)

theorem told_poll (store : Store I V X) (r : Nat) :
    Told store r (store.polling r) (store.poll r).2 := by
  suffices h : ∀ {answer store'}, Polling store r answer store' → store.poll r = (answer, store') →
      Told store r (store.polling r) store' from h (poll_cases store r) rfl
  intro answer store' h ho
  have quiet {q : Request I} (hq : store.requests[r]? = some q) (hd : q.dropped = false)
      (hi : ∀ i, q.instruction = some i → (store.slotAt q.slot).pending ≠ none) :
      store.polling r = [.polled r answer] := by
    rw [polling, if_pos (alive_of_not_dropped hq hd), issues?_eq_none hq fun i _ => hi i, ho]
    rfl
  cases h with
  | absent hq =>
    rw [polling, alive, hq]
    refine .gone fun q hq' => ?_
    rw [hq] at hq'
    cases hq'
  | dropped q hq hd =>
    rw [polling, alive_eq hq, hd]
    refine .gone fun p hp => ?_
    obtain rfl := Option.some.inj (hq.symm.trans hp)
    exact hd
  | behind q i hq hd _ hp => exact quiet hq hd (fun _ _ => hp) ▸ .waits q hq hd
  | held q hq hn hh =>
    obtain ⟨t, ht⟩ := standing_of_holding hh
    have hd := (Request.standing_eq_issued_iff.mp ht).1
    exact quiet hq hd (fun i hi => by rw [hn] at hi; cases hi) ▸ .waits q hq hd
  | read q hq hd hn hh =>
    exact quiet hq hd (fun i hi => by rw [hn] at hi; cases hi) ▸ .read q _ _ hq hd hn hh
  | issued q i hq hd hi hf =>
    rw [polling, if_pos (alive_of_not_dropped hq hd), issues?_eq_some hq hd hi hf, ho]
    exact .issued q i hq hd hi hf

theorem polled_of_mem_acting {action : Action I X} {r : Nat}
    {answer : Option (Except CellError V)} (h : .polled r answer ∈ store.acting action) :
    action = .poll r ∧ store.alive r = true ∧ answer = (store.poll r).1 := by
  cases action with
  | request i => simp [acting] at h
  | look => simp [acting] at h
  | share x => simp [acting] at h
  | drop s =>
    rw [acting, dropping] at h
    split at h <;> simp at h
  | poll s =>
    rw [acting, polling] at h
    split at h
    · rename_i ha
      simp only [List.mem_cons, Happening.polled.injEq, List.mem_map, reduceCtorEq, and_false,
        exists_false, or_false] at h
      obtain ⟨rfl, hn⟩ := h
      exact ⟨rfl, ha, hn⟩
    · simp at h

end Trampoline.Store
