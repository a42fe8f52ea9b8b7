import Mathlib.Data.List.Induction
import Trampoline.Proofs.Custody.Basic
import Trampoline.Proofs.Store.Origins
import Trampoline.Proofs.Store.Tally
import Trampoline.Proofs.Store.View

/-!
What every move of the requests of a description preserves. It is told from the views of the requests,
where a move changes at most the request that it is about.
-/
namespace Trampoline.Traffic

variable {I V X : Type}

/-- Where the instruction of a request is, told from the view of the request. -/
def Seen (collected : List (Issued I)) (v : View I V) : Place → Prop
  | .request => v.request.standing = .waiting
  | .slot => v.held = true
  | .collected => v.request.issued ∈ collected
  | .discarded => v.request.standing = .dropped ∧ v.request.issued ∉ collected

/-- What every move preserves. A request that is neither waiting nor held nor dropped was
collected, and no other was, unless it was dropped since. -/
structure Kept (t : Traffic I V X) : Prop where
  coherent : t.store.Coherent
  slots : t.store.slots.size = 1
  waiting : ∀ {r : Nat} {v : View I V}, t.store.view r = some v →
    v.request.standing = .waiting → v.request.issued ∉ t.collected
  held : ∀ {r : Nat} {v : View I V}, t.store.view r = some v →
    v.held = true → v.request.issued ∉ t.collected
  served : ∀ {r n : Nat} {v : View I V}, t.store.view r = some v →
    v.request.standing = .issued n → v.held = false → v.request.issued ∈ t.collected
  known : ∀ {issued : Issued I}, issued ∈ t.collected →
    ∃ r v, t.store.view r = some v ∧ v.request.issued = issued
  nodup : t.collected.Nodup

variable {t : Traffic I V X}

theorem Kept.slot_eq (ht : t.Kept) {r : Nat} {v : View I V}
    (hv : t.store.view r = some v) : v.request.slot = 0 := by
  have := ht.coherent.slot_lt (Store.request_of_view hv)
  rw [ht.slots] at this
  omega

theorem Kept.seen_iff (ht : t.Kept) {r : Nat} {v : View I V}
    (hv : t.store.view r = some v) (place : Place) :
    Seen t.collected v place ↔ t.Lies v.request place := by
  cases place with
  | request =>
    have hq := Store.request_of_view hv
    constructor
    · intro hw
      exact ⟨(Request.standing_eq_waiting_iff.mp hw).1, ht.coherent.instruction_of_waiting hq hw⟩
    · rintro ⟨hd, hi⟩
      exact (ht.coherent.of_instruction hq hd hi).1
  | slot =>
    have h := Store.held_iff ht.coherent hv
    rw [ht.slot_eq hv] at h
    exact h
  | collected => exact Iff.rfl
  | discarded => exact and_congr_left' Request.standing_eq_dropped_iff

theorem Kept.exists_unique_seen (ht : t.Kept) {r : Nat} {v : View I V}
    (hv : t.store.view r = some v) : ∃! place, Seen t.collected v place := by
  cases hs : v.request.standing with
  | waiting =>
    refine ⟨.request, hs, ?_⟩
    rintro (_ | _ | _ | _) h
    · rfl
    · obtain ⟨n, hn⟩ := Store.standing_of_held hv h
      rw [hs] at hn
      cases hn
    · exact absurd h (ht.waiting hv hs)
    · rw [Seen, hs] at h
      cases h.1
  | issued n =>
    cases hh : v.held with
    | true =>
      refine ⟨.slot, hh, ?_⟩
      rintro (_ | _ | _ | _) h
      · rw [Seen, hs] at h
        cases h
      · rfl
      · exact absurd h (ht.held hv hh)
      · rw [Seen, hs] at h
        cases h.1
    | false =>
      refine ⟨.collected, ht.served hv hs hh, ?_⟩
      rintro (_ | _ | _ | _) h
      · rw [Seen, hs] at h
        cases h
      · rw [Seen, hh] at h
        cases h
      · rfl
      · exact absurd (ht.served hv hs hh) h.2
  | dropped =>
    have hn : ¬ Seen t.collected v .slot := by
      intro h
      obtain ⟨n, hn⟩ := Store.standing_of_held hv h
      rw [hs] at hn
      cases hn
    have hw : ¬ Seen t.collected v .request := by
      rw [Seen, hs]
      exact fun h => by cases h
    by_cases hm : v.request.issued ∈ t.collected
    · refine ⟨.collected, hm, ?_⟩
      rintro (_ | _ | _ | _) h
      · exact absurd h hw
      · exact absurd h hn
      · rfl
      · exact absurd hm h.2
    · refine ⟨.discarded, ⟨hs, hm⟩, ?_⟩
      rintro (_ | _ | _ | _) h
      · exact absurd h hw
      · exact absurd h hn
      · exact absurd h hm
      · rfl

/-- How a request may change, short of being collected. -/
structure Stays (v v' : View I V) : Prop where
  issued : v'.request.issued = v.request.issued
  waiting : v'.request.standing = .waiting → v.request.standing = .waiting
  held : v'.held = true → v.held = true ∨ v.request.standing = .waiting
  served : ∀ {n : Nat}, v'.request.standing = .issued n → v'.held = false →
    v.request.standing = .issued n ∧ v.held = false

private theorem Stays.refl (v : View I V) : Stays v v :=
  ⟨rfl, id, .inl, fun hs hh => ⟨hs, hh⟩⟩

theorem Stays.polled {v v' : View I V} {answer : Option (Except CellError V)}
    (h : v.Polled answer v') : Stays v v' := by
  cases h with
  | dropped => exact .refl v
  | behind => exact .refl v
  | held => exact .refl v
  | issued n hs =>
    have hn := Request.standing_ticketed_of_waiting hs n
    exact ⟨rfl, (fun h => by cases hn.symm.trans h), fun _ => .inr hs, fun _ h => by cases h⟩
  | read n hs hh => exact ⟨rfl, id, .inl, fun hs hh => ⟨hs, hh⟩⟩

theorem Stays.drop (v : View I V) : Stays v v.drop :=
  ⟨rfl, (fun h => by cases h), (fun h => by cases h), fun h => by cases h⟩

private theorem Kept.keep (ht : t.Kept) {store' : Store I V X} (hc : store'.Coherent)
    (hs : store'.slots.size = 1)
    (hv : ∀ {r : Nat} {v : View I V}, t.store.view r = some v →
      ∃ v', store'.view r = some v' ∧ Stays v v')
    (hn : ∀ {r : Nat} {v' : View I V}, store'.view r = some v' → t.store.view r = none →
      v'.request.standing = .waiting ∧ v'.held = false ∧ v'.request.issued ∉ t.collected) :
    Kept { t with store := store' } := by
  have back {r : Nat} {v' : View I V} (h : store'.view r = some v') :
      (∃ v, t.store.view r = some v ∧ Stays v v') ∨
        (v'.request.standing = .waiting ∧ v'.held = false ∧ v'.request.issued ∉ t.collected) := by
    cases hr : t.store.view r with
    | none => exact .inr (hn h hr)
    | some v =>
      obtain ⟨w, hw, hst⟩ := hv hr
      obtain rfl := Option.some.inj (h.symm.trans hw)
      exact .inl ⟨v, rfl, hst⟩
  refine ⟨hc, hs, ?_, ?_, ?_, ?_, ht.nodup⟩
  · intro r v' h hw
    obtain ⟨v, hr, hst⟩ | ⟨_, _, hm⟩ := back h
    · exact hst.issued ▸ ht.waiting hr (hst.waiting hw)
    · exact hm
  · intro r v' h hh
    obtain ⟨v, hr, hst⟩ | ⟨_, hf, _⟩ := back h
    · rw [hst.issued]
      exact (hst.held hh).elim (ht.held hr) (ht.waiting hr)
    · rw [hf] at hh
      cases hh
  · intro r n v' h hi hh
    obtain ⟨v, hr, hst⟩ | ⟨hw, _, _⟩ := back h
    · obtain ⟨hi, hh⟩ := hst.served hi hh
      exact hst.issued ▸ ht.served hr hi hh
    · rw [hw] at hi
      cases hi
  · intro issued hm
    obtain ⟨r, v, hr, rfl⟩ := ht.known hm
    obtain ⟨v', hv', hst⟩ := hv hr
    exact ⟨r, v', hv', hst.issued⟩

private theorem Kept.request (ht : t.Kept) (i : I) : (t.move (.request i)).Kept := by
  apply ht.keep (ht.coherent.request (by rw [ht.slots]; exact Nat.one_pos) i)
  · exact ht.slots
  · intro r v hv
    refine ⟨v, ?_, .refl v⟩
    rw [Store.view_request_of_ne ht.coherent _ _ (Nat.ne_of_lt (Store.view_lt hv)), hv]
  · intro r v' hv' hr
    by_cases he : r = t.store.requests.size
    · subst he
      rw [Store.view_request_self] at hv'
      cases hv'
      refine ⟨rfl, rfl, fun hm => ?_⟩
      obtain ⟨s, v, hv, hi⟩ := ht.known hm
      have := ht.coherent.cell_lt (Store.request_of_view hv)
      rw [hi] at this
      exact Nat.lt_irrefl _ this
    · rw [Store.view_request_of_ne ht.coherent _ _ he, hr] at hv'
      cases hv'

private theorem Kept.view_poll (ht : t.Kept) (r : Nat) {s : Nat} {v : View I V}
    (hv : t.store.view s = some v) : ∃ v', (t.store.poll r).2.view s = some v' ∧ Stays v v' := by
  by_cases hs : s = r
  · subst hs
    obtain ⟨v', hv', hp⟩ := Store.view_poll_self ht.coherent hv
    exact ⟨v', hv', .polled hp⟩
  · exact ⟨v, by rw [Store.view_poll_of_ne ht.coherent hs, hv], .refl v⟩

private theorem Kept.poll (ht : t.Kept) (r : Nat) : (t.move (.poll r)).Kept := by
  apply ht.keep (ht.coherent.poll r)
  · rw [Store.size_slots_poll, ht.slots]
  · exact ht.view_poll r
  · intro s v' hv' hs
    have hl := Store.view_lt hv'
    rw [Store.size_requests_poll] at hl
    exact absurd hl (Nat.not_lt_of_le (Store.view_eq_none_iff.mp hs))

private theorem Kept.view_drop (ht : t.Kept) (r : Nat) {s : Nat} {v : View I V}
    (hv : t.store.view s = some v) : ∃ v', (t.store.drop r).view s = some v' ∧ Stays v v' := by
  by_cases hs : s = r
  · subst hs
    exact ⟨v.drop, Store.view_drop_self hv, .drop v⟩
  · exact ⟨v, by rw [Store.view_drop_of_ne ht.coherent hs, hv], .refl v⟩

private theorem Kept.drop (ht : t.Kept) (r : Nat) : (t.move (.drop r)).Kept := by
  apply ht.keep (ht.coherent.drop r)
  · rw [Store.size_slots_drop, ht.slots]
  · exact ht.view_drop r
  · intro s v' hv' hs
    have hl := Store.view_lt hv'
    rw [Store.size_requests_drop] at hl
    exact absurd hl (Nat.not_lt_of_le (Store.view_eq_none_iff.mp hs))

/-- The view of a request after a collection. -/
theorem Kept.view_collect (ht : t.Kept) {r : Nat} {v : View I V}
    (hv : t.store.view r = some v) :
    (t.store.collect 0).2.view r = some { v with held := false } := by
  rw [Store.view_collect, hv, Option.map_some, ht.slot_eq hv]
  simp

/-- A collection takes exactly the instruction of the request that is held. -/
theorem Kept.mem_collect (ht : t.Kept) {r : Nat} {v : View I V}
    (hv : t.store.view r = some v) :
    v.request.issued ∈ (t.move .collect).collected ↔
      v.request.issued ∈ t.collected ∨ v.held = true := by
  have hh := Store.held_iff ht.coherent hv
  rw [ht.slot_eq hv] at hh
  rw [hh, move, List.mem_append, Store.collect]
  split
  · rename_i hp
    simp [hp]
  · rename_i n issued hp
    simp [hp, eq_comm]

private theorem Kept.collect (ht : t.Kept) : (t.move .collect).Kept := by
  have back {r : Nat} {v' : View I V} (h : (t.move .collect).store.view r = some v') :
      ∃ v, t.store.view r = some v ∧ v' = { v with held := false } := by
    cases hr : t.store.view r with
    | none =>
      rw [move, Store.view_collect, hr] at h
      cases h
    | some v => exact ⟨v, rfl, Option.some.inj (h.symm.trans (ht.view_collect hr))⟩
  refine ⟨ht.coherent.collect 0, ?_, ?_, ?_, ?_, ?_, ?_⟩
  · rw [move, Store.size_slots_collect, ht.slots]
  · intro r v' h hw
    obtain ⟨v, hv, rfl⟩ := back h
    rw [ht.mem_collect hv, not_or]
    refine ⟨ht.waiting hv hw, fun hh => ?_⟩
    obtain ⟨n, hn⟩ := Store.standing_of_held hv hh
    rw [hn] at hw
    cases hw
  · intro r v' h hh
    obtain ⟨v, hv, rfl⟩ := back h
    cases hh
  · intro r n v' h hi _
    obtain ⟨v, hv, rfl⟩ := back h
    rw [ht.mem_collect hv]
    cases hh : v.held with
    | true => exact .inr rfl
    | false => exact .inl (ht.served hv hi hh)
  · intro issued hm
    rw [move, List.mem_append] at hm
    obtain ⟨r, v, hv, hi⟩ : ∃ r v, t.store.view r = some v ∧ v.request.issued = issued := by
      obtain hm | hm := hm
      · exact ht.known hm
      · obtain ⟨n, hp⟩ := Store.pending_of_collect (Option.mem_toList.mp hm)
        obtain ⟨r, v, hv, _, _, hi⟩ := Store.exists_held ht.coherent hp
        exact ⟨r, v, hv, hi⟩
    exact ⟨r, _, ht.view_collect hv, hi⟩
  · rw [move]
    refine List.nodup_append.mpr ⟨ht.nodup, ?_, ?_⟩
    · cases (t.store.collect 0).1 <;> simp
    · rintro issued hm _ hm' rfl
      obtain ⟨n, hp⟩ := Store.pending_of_collect (Option.mem_toList.mp hm')
      obtain ⟨r, v, hv, hh, _, rfl⟩ := Store.exists_held ht.coherent hp
      exact ht.held hv hh hm

private theorem Kept.start (shared : X) : (Traffic.start shared : Traffic I V X).Kept := by
  have none (r : Nat) : (Traffic.start shared : Traffic I V X).store.view r = none := rfl
  refine ⟨(Store.Coherent.fresh shared).newSlot, rfl, ?_, ?_, ?_, ?_, List.nodup_nil⟩
  · intro r v hv
    rw [none] at hv
    cases hv
  · intro r v hv
    rw [none] at hv
    cases hv
  · intro r n v hv
    rw [none] at hv
    cases hv
  · intro issued hm
    cases hm

theorem Kept.move (ht : t.Kept) (move : Move I) : (t.move move).Kept := by
  cases move with
  | request i => exact ht.request i
  | poll r => exact ht.poll r
  | drop r => exact ht.drop r
  | collect => exact ht.collect

private theorem issued_le_served_move (ht : t.Kept)
    (h : (t.store.slotAt 0).issued ≤ t.store.served) (move : Move I) :
    ((t.move move).store.slotAt 0).issued ≤ (t.move move).store.served := by
  cases move with
  | request i =>
    have hs : (t.store.request 0 i).2.served = t.store.served := by
      simp [Store.served, Store.request, Store.issue, Store.newCell]
    exact hs ▸ h
  | poll r => exact Store.served_poll ht.coherent r 0 h
  | drop r => exact Store.served_drop r 0 h
  | collect =>
    have hs : (t.store.collect 0).2.served = t.store.served := by
      unfold Store.collect
      split <;> rfl
    have hi : ((t.store.collect 0).2.slotAt 0).issued = (t.store.slotAt 0).issued := by
      unfold Store.collect
      split
      · rfl
      · rw [Store.slotAt_vacate, if_pos rfl]
    rw [Traffic.move, hs, hi]
    exact h

private theorem after_concat (shared : X) (moves : List (Move I)) (move : Move I) :
    (after shared (moves ++ [move]) : Traffic I V X) = (after shared moves).move move := by
  rw [after, List.foldl_append]; rfl

/-- Every request that was made is still known, with its instruction. -/
theorem asked_after (shared : X) (moves : List (Move I)) :
    (after shared moves : Traffic I V X).store.origins.toList.map (·.1.instruction) =
      moves.filterMap Move.instruction? := by
  induction moves using List.reverseRecOn with
  | nil => simp [after, start, Store.origins, Store.fresh, Store.newSlot]
  | append_singleton moves move ih =>
    rw [after_concat, List.filterMap_append, ← ih]
    cases move with
    | request i => simp [Traffic.move, Store.origins_request, Move.instruction?]
    | poll r => simp [Traffic.move, Store.origins_poll, Move.instruction?]
    | drop r => simp [Traffic.move, Store.origins_drop, Move.instruction?]
    | collect => simp [Traffic.move, Store.origins_collect, Move.instruction?]

theorem kept_after (shared : X) (moves : List (Move I)) :
    (after shared moves : Traffic I V X).Kept ∧
      ((after shared moves : Traffic I V X).store.slotAt 0).issued ≤
        (after shared moves : Traffic I V X).store.served := by
  induction moves using List.reverseRecOn with
  | nil => exact ⟨.start shared, Nat.le_refl 0⟩
  | append_singleton moves move ih =>
    rw [after_concat]
    exact ⟨ih.1.move move, issued_le_served_move ih.1 ih.2 move⟩

end Trampoline.Traffic
