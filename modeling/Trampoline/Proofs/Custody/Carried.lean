import Trampoline.Proofs.Custody.Kept

/-!
No instruction is lost or duplicated. Each goes from one place to another only by a poll of its own
request, by a collection, or by the drop of its own request.
-/
namespace Trampoline.Traffic

variable {I V X : Type} {t : Traffic I V X}

private theorem Kept.orderly (ht : t.Kept) (hi : (t.store.slotAt 0).issued ≤ t.store.served) :
    t.Orderly where
  kept_iff {r q issued} hq _ := by
    rw [ht.coherent.keeps hq]
    cases q.ticket <;> simp
  ticket_le {r n q} hq hn := by
    have := ht.coherent.ticket_le hq hn
    rwa [show q.slot = 0 from ht.slot_eq (Store.view_eq hq)] at this
  ticket_inj {r s n q p} hq hp hn hn' := by
    have he : q.slot = p.slot :=
      (ht.slot_eq (Store.view_eq hq)).trans (ht.slot_eq (Store.view_eq hp)).symm
    exact ht.coherent.ticket_inj hq hp he hn hn'
  holder {n issued} hp := by
    obtain ⟨hl, r, q, hq, hk, hs, he⟩ := ht.coherent.holder hp
    obtain ⟨hd, hn⟩ := Request.standing_eq_issued_iff.mp hs
    refine ⟨hl, r, q, hq, hd, hn, he, fun {s p} hs hn' => ?_⟩
    have hs0 : p.slot = q.slot := (ht.slot_eq (Store.view_eq hs)).trans hk.symm
    exact ht.coherent.ticket_inj hs hq hs0 hn' hn
  issued_inj hq hp he := ht.coherent.cell_inj hq hp (congrArg Issued.cell he)
  one_place {r q} hq := by
    have hv := Store.view_eq hq
    obtain ⟨place, hp, hu⟩ := ht.exists_unique_seen hv
    exact ⟨place, (ht.seen_iff hv place).mp hp, fun other ho => hu other ((ht.seen_iff hv other).mpr ho)⟩
  collected_once := ht.nodup
  issued_le := Nat.le_trans hi t.store.served_le

private theorem Kept.carried_polled (ht : t.Kept) {r : Nat} {v v' : View I V} {place : Place}
    {answer : Option (Except CellError V)} (hv : t.store.view r = some v)
    (hp : Seen t.collected v place) (h : v.Polled answer v') :
    Seen t.collected v' place ∨
      ∃ place', (Move.poll r).Carries (I := I) r place place' ∧ Seen t.collected v' place' := by
  cases h with
  | dropped => exact .inl hp
  | behind => exact .inl hp
  | held => exact .inl hp
  | read => cases place <;> exact .inl hp
  | issued n hw =>
    obtain rfl : place = .request := (ht.exists_unique_seen hv).unique hp hw
    exact .inr ⟨.slot, .issue, rfl⟩

private theorem Kept.carried_poll (ht : t.Kept) {r : Nat} {v : View I V} {place : Place}
    (hv : t.store.view r = some v) (hp : Seen t.collected v place) (s : Nat) :
    ∃ v', (t.store.poll s).2.view r = some v' ∧ v'.request.issued = v.request.issued ∧
      (Seen t.collected v' place ∨
        ∃ place', (Move.poll s).Carries (I := I) r place place' ∧ Seen t.collected v' place') := by
  by_cases hs : r = s
  · subst hs
    obtain ⟨v', hv', h⟩ := Store.view_poll_self ht.coherent hv
    exact ⟨v', hv', (Stays.polled h).issued, ht.carried_polled hv hp h⟩
  · exact ⟨v, by rw [Store.view_poll_of_ne ht.coherent hs, hv], rfl, .inl hp⟩

private theorem Kept.carried_drop (ht : t.Kept) {r : Nat} {v : View I V} {place : Place}
    (hv : t.store.view r = some v) (hp : Seen t.collected v place) (s : Nat) :
    ∃ v', (t.store.drop s).view r = some v' ∧ v'.request.issued = v.request.issued ∧
      (Seen t.collected v' place ∨
        ∃ place', (Move.drop s).Carries (I := I) r place place' ∧ Seen t.collected v' place') := by
  by_cases hs : r = s
  · subst hs
    refine ⟨v.drop, Store.view_drop_self hv, rfl, ?_⟩
    cases place with
    | request =>
      have hm := ht.waiting hv hp
      exact .inr ⟨.discarded, .abandon, rfl, hm⟩
    | slot =>
      have hm := ht.held hv hp
      exact .inr ⟨.discarded, .withdraw, rfl, hm⟩
    | collected => exact .inl hp
    | discarded => exact .inl ⟨rfl, hp.2⟩
  · exact ⟨v, by rw [Store.view_drop_of_ne ht.coherent hs, hv], rfl, .inl hp⟩

private theorem Kept.carried_collect (ht : t.Kept) {r : Nat} {v : View I V} {place : Place}
    (hv : t.store.view r = some v) (hp : Seen t.collected v place) :
    ∃ v', (t.move .collect).store.view r = some v' ∧ v'.request.issued = v.request.issued ∧
      (Seen (t.move .collect).collected v' place ∨
        ∃ place', (Move.collect : Move I).Carries r place place' ∧
          Seen (t.move .collect).collected v' place') := by
  refine ⟨_, ht.view_collect hv, rfl, ?_⟩
  cases place with
  | request => exact .inl hp
  | slot => exact .inr ⟨.collected, .collect, (ht.mem_collect hv).mpr (.inr hp)⟩
  | collected => exact .inl ((ht.mem_collect hv).mpr (.inl hp))
  | discarded =>
    refine .inl ⟨hp.1, fun hm => ?_⟩
    obtain hm | hh := (ht.mem_collect hv).mp hm
    · exact hp.2 hm
    · obtain ⟨n, hn⟩ := Store.standing_of_held hv hh
      rw [hp.1] at hn
      cases hn

private theorem Kept.carried (ht : t.Kept) {r : Nat} {v : View I V} {place : Place}
    (hv : t.store.view r = some v) (hp : Seen t.collected v place) (move : Move I) :
    ∃ v', (t.move move).store.view r = some v' ∧ v'.request.issued = v.request.issued ∧
      (Seen (t.move move).collected v' place ∨
        ∃ place', move.Carries r place place' ∧ Seen (t.move move).collected v' place') := by
  cases move with
  | request i =>
    refine ⟨v, ?_, rfl, .inl hp⟩
    exact (Store.view_request_of_ne ht.coherent 0 i (Nat.ne_of_lt (Store.view_lt hv))).trans hv
  | poll s => exact ht.carried_poll hv hp s
  | drop s => exact ht.carried_drop hv hp s
  | collect => exact ht.carried_collect hv hp

/-- Whatever happens to the requests of a description, and in whatever order: the requests are orderly,
every instruction that was requested is known, and another move leaves it where it is or carries it on.
Only the drop of its own request carries an instruction where it is given up, and nothing carries it
back from there or from the collected ones. -/
theorem every_instruction_in_one_place (shared : X) (moves : List (Move I)) :
    let t : Traffic I V X := after shared moves
    t.Orderly ∧
      t.store.origins.toList.map (·.1.instruction) = moves.filterMap Move.instruction? ∧
      ∀ (move : Move I) (r : Nat) (q : Request I) (place : Place),
        t.store.requests[r]? = some q → t.Lies q place →
          ∃ q', (t.move move).store.requests[r]? = some q' ∧ q'.issued = q.issued ∧
            ((t.move move).Lies q' place ∨
              ∃ place', move.Carries r place place' ∧ (t.move move).Lies q' place') := by
  intro t
  obtain ⟨ht, hi⟩ := kept_after (V := V) shared moves
  refine ⟨ht.orderly hi, asked_after shared moves, fun move r q place hq hp => ?_⟩
  have hv := Store.view_eq hq
  obtain ⟨v', hv', he, hc⟩ := ht.carried hv ((ht.seen_iff hv place).mpr hp) move
  have lies := (ht.move move).seen_iff hv'
  refine ⟨v'.request, Store.request_of_view hv', he, ?_⟩
  obtain hs | ⟨place', hc, hs⟩ := hc
  · exact .inl ((lies place).mp hs)
  · exact .inr ⟨place', hc, (lies place').mp hs⟩

end Trampoline.Traffic
