import Trampoline.Proofs.Store.Coherent

/-!
How many requests of a store were served. No slot gives out more tickets than there are requests that no
longer wait.
-/
namespace Trampoline.Store

variable {I V X : Type}

/-- How many requests are no longer waiting. -/
def served (store : Store I V X) : Nat :=
  store.requests.toList.countP fun q => q.standing != .waiting

theorem served_le (store : Store I V X) : store.served ≤ store.requests.size :=
  List.countP_le_length

/-- Changing a request that waits makes one more that does not. -/
private theorem countP_set_waiting {requests : Array (Request I)} {r : Nat} {q p : Request I}
    (hq : requests[r]? = some q) (hp : p.standing ≠ .waiting) :
    (requests.setIfInBounds r p).toList.countP (fun q => q.standing != .waiting) =
      requests.toList.countP (fun q => q.standing != .waiting) +
        if q.standing = .waiting then 1 else 0 := by
  obtain ⟨hr, rfl⟩ := Array.getElem?_eq_some_iff.mp hq
  have hl : r < requests.toList.length := hr
  have hp' : (p.standing != .waiting) = true := bne_iff_ne.mpr hp
  rw [Array.toList_setIfInBounds, List.countP_set hl, Array.getElem_toList, if_pos hp']
  by_cases hw : requests[r].standing = .waiting
  · have hn : ¬ (requests[r].standing != .waiting) = true := fun h => bne_iff_ne.mp h hw
    rw [if_neg hn, if_pos hw, Nat.sub_zero]
  · have hn : (requests[r].standing != .waiting) = true := bne_iff_ne.mpr hw
    have pos : 0 < requests.toList.countP fun q => q.standing != .waiting :=
      List.countP_pos_iff.mpr ⟨_, List.getElem_mem hl, hn⟩
    rw [if_pos hn, if_neg hw]
    omega

theorem served_poll {store : Store I V X} (hc : store.Coherent) (r k : Nat)
    (h : (store.slotAt k).issued ≤ store.served) :
    ((store.poll r).2.slotAt k).issued ≤ (store.poll r).2.served := by
  suffices hs : ∀ {answer store'}, Polling store r answer store' →
      (store'.slotAt k).issued ≤ store'.served from hs (poll_cases store r)
  intro answer store' hp
  cases hp with
  | issued q i hq hd hi _ =>
    obtain ⟨hw, -⟩ := hc.of_instruction hq hd hi
    have hs : (store.occupy r q i).served = store.served + 1 := by
      have ht : (q.ticketed ((store.slotAt q.slot).issued + 1)).standing ≠ .waiting := by
        rw [Request.standing_ticketed hd]
        nofun
      have := countP_set_waiting hq ht
      rwa [if_pos hw] at this
    rw [slotAt_occupy (hc.slot_lt hq), hs]
    split
    · exact Nat.succ_le_succ h
    · exact Nat.le_succ_of_le h
  | _ => exact h

theorem served_drop {store : Store I V X} (r k : Nat) (h : (store.slotAt k).issued ≤ store.served) :
    ((store.drop r).slotAt k).issued ≤ (store.drop r).served := by
  cases hq : store.requests[r]? with
  | none => rwa [drop_of_none hq]
  | some q =>
    have hs : store.served ≤ (store.drop r).served := by
      have := countP_set_waiting (p := q.drop) hq (by simp)
      rw [drop_eq hq, served, served]
      split <;> exact this ▸ Nat.le_add_right _ _
    rw [slotAt_drop hq]
    split <;> exact Nat.le_trans h hs

end Trampoline.Store
