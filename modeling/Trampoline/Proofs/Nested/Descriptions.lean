import Trampoline.Proofs.Nested.Branches

/-!
The polls of nested descriptions, from the first to the last, by induction on how they are nested: each
leaves behind what is left to do in the sequential reading.
-/
namespace Trampoline

variable {I V X T : Type} {k : Nat} {store : Store I V X}

open Happening (Untroubled untroubled_append)

/-- A description that has finished is not polled. -/
private theorem goes_finished (hc : store.Coherent) (result : Except Failure T) :
    (Script.done (.finished result)).Goes Activity.outlook k store [] (.pure result) where
  toTidy := .nothing hc (fun _ hr => absurd hr List.not_mem_nil) List.nodup_nil
  value := rfl
  rest := rfl
  freed ht _ := .inl ht
  head _ := nofun

section Request

variable {r : Nat} {next : V → Nested I V T} {goOn : V → Script I V X (Activity I V T)}

/-- A request that waits goes on waiting, now perhaps in the slot. -/
private theorem goes_waits (hc : store.Coherent) {i : I} (h : store.Waits k r i) :
    ((Script.poll r).bind (Script.answered r next goOn)).Goes Activity.outlook k store [r]
      (.perform i fun value => (next value).reading) := by
  obtain ⟨hn, hbehind, hfree⟩ := Store.poll_of_waits hc h
  have hf := Store.frame_poll hc r
  have hdue : (store.poll r).2.due? r = some (.inl i) := by
    cases ht : store.taken k with
    | true => rw [hbehind ht, Store.due?_of_waits h]
    | false => exact Store.due?_of_holds (hfree ht)
  have hlt : r < (store.poll r).2.requests.size := by
    rw [Store.size_requests_poll]
    exact Store.Quiet.lt (.inl ⟨i, h⟩)
  change Went _ k store [r] (Script.happenings k (.act (.poll r) _) store)
    (Script.run k (.act (.poll r) _) store) _
  rw [Script.run_poll hn, Script.happenings_poll hn]
  change Went _ k store [r] (store.polling r ++ []) (Activity.waiting r next, (store.poll r).2) _
  have hown : ∀ s ∈ (Activity.waiting r next).owned, s = r := fun s hs => List.mem_singleton.mp hs
  constructor
  case toTidy =>
    refine ⟨?_, hf, fun s hs => .inl hs, fun s hs => hown s hs ▸ hlt, List.pairwise_singleton _ r, ?_⟩
    · rw [List.append_nil]
      exact Store.untroubled_polling (by simp [hn])
    · intro ht s hs
      rw [hown s hs, hbehind ht]
      exact .inl ⟨i, h⟩
  case value => rfl
  case rest =>
    change Activity.rest _ (.waiting r next) = _
    rw [Activity.rest, hdue]
  case freed =>
    intro _ h
    cases h
  case head =>
    intro ht _
    refine ⟨i, _, r, rfl, List.mem_singleton.mpr rfl, hfree ht, fun s hs hne => absurd (hown s hs) hne,
      fun {due value} _ hr => ?_⟩
    change Activity.rest due (.waiting r next) = _
    rw [Activity.rest, hr]

variable (hgo : ∀ value {store' : Store I V X}, store'.Coherent → k < store'.slots.size →
  (goOn value).Goes Activity.outlook k store' [] (next value).reading)

include hgo

/-- A request that is polled again. Once it is answered it is dropped, and the answer is used. -/
private theorem goes_waiting (hc : store.Coherent) (hk : k < store.slots.size)
    (hq : store.Quiet k r) :
    ((Script.poll r).bind (Script.answered r next goOn)).Goes Activity.outlook k store [r]
      ((Activity.waiting r next).rest store.due?) := by
  obtain ⟨i, h⟩ | ⟨value, h⟩ := hq
  · rw [Activity.rest, Store.due?_of_waits h]
    exact goes_waits hc h
  · rw [Activity.rest, Store.due?_of_answered h]
    obtain ⟨hv, hs⟩ := Store.poll_of_answered h
    have hp := Store.frame_poll hc r
    have hd := Store.frame_drop hp.coherent r
    have hf := hp.trans hd fun _ => .inl
    have hw := hgo value hd.coherent (by rw [hf.slots]; exact hk)
    have ht : ((store.poll r).2.drop r).taken k = store.taken k := by
      cases ht : store.taken k with
      | true =>
        refine hf.taken hc (fun s hs => ?_) ht
        exact List.mem_singleton.mp hs ▸ Store.Quiet.held (.inr ⟨value, h⟩)
      | false =>
        refine Store.taken_drop_of_free r ?_
        rw [Store.taken, Store.slotAt, hs]
        exact ht
    change Went _ k store [r] (Script.happenings k (.act (.poll r) _) store)
      (Script.run k (.act (.poll r) _) store) _
    rw [Script.run_poll hv, Script.happenings_poll hv]
    change Went _ k store [r] (store.polling r ++ ((store.poll r).2.dropping r ++
      Script.happenings k (goOn value) ((store.poll r).2.drop r)))
      (Script.run k (goOn value) ((store.poll r).2.drop r)) _
    rw [← List.append_assoc]
    refine Went.after hw (fun _ hr => absurd hr List.not_mem_nil) hf ht ?_
    exact untroubled_append.mpr
      ⟨Store.untroubled_polling (by simp [hv]), Store.untroubled_dropping _ r⟩

end Request

section Several

variable {branches : List (Branch I V X T)} {cs : List (Sequential I V (Except Failure T))}

/-- All branches of a join, and what comes after them. -/
private theorem goes_joined (h : Branches k store branches cs) (hc : store.Coherent)
    (hk : k < store.slots.size) {next : List (Except Failure T) → Nested I V T}
    {goOn : List (Except Failure T) → Script I V X (Activity I V T)}
    (hgo : ∀ results {store' : Store I V X}, store'.Coherent → k < store'.slots.size →
      (goOn results).Goes Activity.outlook k store' [] (next results).reading) :
    ((Script.gather branches).bind (Script.joined next goOn)).Goes Activity.outlook k store
      (branches.flatMap Branch.owned)
      ((Sequential.all cs).bind fun results => (next results).reading) := by
  refine (h.gather_goes hc hk).goOn hc hk h.quiet (fun {as results} hr => ?_) fun {as} hr => ?_
  · refine ⟨goOn results, ?_, hgo results⟩
    have ho : Activity.outlooks.owned (V := V) (I := I) as = [] := Activity.ownedAll_of_results? hr
    rw [ho, Script.joined, show Activity.results? as = some results from hr]
    rfl
  · refine ⟨.joining as next, ?_, rfl, rfl, fun due => rfl⟩
    rw [Script.joined, show Activity.results? as = none from hr]

/-- The branches of a race, and what comes after one of them has won. -/
private theorem goes_raced {branch : Branch I V X T} {c : Sequential I V (Except Failure T)}
    (h : Branches k store (branch :: branches) (c :: cs)) (hc : store.Coherent)
    (hk : k < store.slots.size) {next : Nat × Except Failure T → Nested I V T}
    {goOn : Nat × Except Failure T → Script I V X (Activity I V T)}
    (hgo : ∀ winner {store' : Store I V X}, store'.Coherent → k < store'.slots.size →
      (goOn winner).Goes Activity.outlook k store' [] (next winner).reading) :
    ((Script.contest 0 branch branches).bind (Script.raced next goOn)).Goes Activity.outlook k store
      ((branch :: branches).flatMap Branch.owned)
      ((Sequential.first 0 c cs).bind fun winner => (next winner).reading) := by
  refine (h.contest_goes hc hk 0).goOn hc hk h.quiet (fun {s winner} hr => ?_) fun {s} hr => ?_
  · obtain ⟨losers, rfl⟩ := Contest.eq_won hr
    exact ⟨goOn winner, rfl, hgo winner⟩
  · obtain ⟨first, others, rfl⟩ := Contest.eq_undecided hr
    exact ⟨.racing first others next, rfl, rfl, rfl, fun due => rfl⟩

end Several

namespace Nested

theorem branches_starts {ds : List (Nested I V T)}
    (h : ∀ d ∈ ds, ∀ {store : Store I V X}, store.Coherent → k < store.slots.size →
      d.start.Goes Activity.outlook k store [] d.reading) (store : Store I V X) :
    Branches k store (starts ds) (readings ds) ∧ (starts (X := X) ds).flatMap Branch.owned = [] := by
  induction ds with
  | nil => exact ⟨.nil, rfl⟩
  | cons d ds ih =>
    obtain ⟨hs, ho⟩ := ih fun d hd => h d (List.mem_cons_of_mem _ hd)
    refine ⟨.cons (fun hc hk _ => h d List.mem_cons_self hc hk) ?_ List.nodup_nil ?_ hs, ho⟩
    · exact fun _ hr => absurd hr List.not_mem_nil
    · exact fun _ hr => absurd hr List.not_mem_nil

/-- The first poll of a description. -/
theorem start_goes (d : Nested I V T) (hc : store.Coherent) (hk : k < store.slots.size) :
    d.start.Goes Activity.outlook k store [] d.reading := by
  induction d generalizing store with
  | pure value => exact goes_finished hc _
  | fail failure => exact goes_finished hc _
  | perform i next ih =>
    have hw : ((Script.poll (store.request k i).1).bind
        (Script.answered (store.request k i).1 next fun value => (next value).start)).Goes
        Activity.outlook k (store.request k i).2 [(store.request k i).1] _ :=
      goes_waits (hc.request hk i) (store.waits_request k i)
    rw [start, reading]
    have hu : Untroubled (V := V) (I := I) [.requested store.requests.size] := by simp [Untroubled]
    refine Went.after hw (fun r hr => .inr ?_) (Store.frame_request hc hk i) rfl hu
    exact Nat.le_of_eq (List.mem_singleton.mp hr).symm
  | join branches next ih ihs =>
    obtain ⟨hs, ho⟩ := branches_starts ih store
    have hg := goes_joined hs hc hk ihs
    rw [ho] at hg
    rw [start, reading]
    exact hg
  | race first others next ih ihs ihw =>
    obtain ⟨hs, ho⟩ := branches_starts ihs store
    have hb : Branches k store (⟨[], first.start⟩ :: starts others) (first.reading :: readings others) :=
      .cons (fun hc hk _ => ih hc hk) (fun _ hr => absurd hr List.not_mem_nil) List.nodup_nil
        (fun _ hr => absurd hr List.not_mem_nil) hs
    have hg := goes_raced hb hc hk ihw
    rw [List.flatMap_cons, ho] at hg
    rw [start, reading]
    exact hg

end Nested

namespace Activity

private theorem branches_polls {as : List (Activity I V T)}
    (h : ∀ a ∈ as, ∀ {store : Store I V X}, store.Coherent → k < store.slots.size →
      (∀ r ∈ a.owned, store.Quiet k r) → a.owned.Nodup →
      a.poll.Goes outlook k store a.owned (a.rest store.due?))
    (hq : ∀ r ∈ ownedAll as, store.Quiet k r) (hn : (ownedAll as).Nodup) :
    Branches k store (polls as) (rests store.due? as) ∧
      (polls (X := X) as).flatMap Branch.owned = ownedAll as := by
  induction as with
  | nil => exact ⟨.nil, rfl⟩
  | cons a as ih =>
    rw [ownedAll] at hq hn
    obtain ⟨hna, hns, hd⟩ := List.nodup_append.mp hn
    obtain ⟨hs, ho⟩ := ih (fun b hb => h b (List.mem_cons_of_mem a hb))
      (fun r hr => hq r (List.mem_append_right _ hr)) hns
    have hqa := fun r hr => hq r (List.mem_append_left _ hr)
    refine ⟨.cons (fun {store'} hc hk hv => ?_) hqa hna ?_ hs, ?_⟩
    · have he : a.rest store'.due? = a.rest store.due? :=
        a.rest_congr fun r hr => Store.due?_congr (hv r hr)
      exact he ▸ h a List.mem_cons_self hc hk (fun r hr => (hqa r hr).congr (hv r hr)) hna
    · rw [ho]
      exact fun r hr hr' => hd r hr r hr' rfl
    · rw [polls, List.flatMap_cons, ho, ownedAll]

/-- A later poll of a description. -/
theorem poll_goes (a : Activity I V T) (hc : store.Coherent) (hk : k < store.slots.size)
    (hq : ∀ r ∈ a.owned, store.Quiet k r) (hn : a.owned.Nodup) :
    a.poll.Goes outlook k store a.owned (a.rest store.due?) := by
  induction a generalizing store with
  | finished result => exact goes_finished hc result
  | waiting r next =>
    rw [poll]
    exact goes_waiting (fun value => (next value).start_goes) hc hk (hq r List.mem_cons_self)
  | joining branches next ih =>
    obtain ⟨hs, ho⟩ := branches_polls ih hq hn
    have hg := goes_joined hs hc hk fun results => (next results).start_goes
    rw [ho] at hg
    rw [poll, rest, owned]
    exact hg
  | racing first others next ih ihs =>
    have h : ∀ a ∈ first :: others, ∀ {store : Store I V X}, store.Coherent → k < store.slots.size →
        (∀ r ∈ a.owned, store.Quiet k r) → a.owned.Nodup →
        a.poll.Goes outlook k store a.owned (a.rest store.due?) :=
      List.forall_mem_cons.mpr ⟨ih, ihs⟩
    obtain ⟨hs, ho⟩ := branches_polls h hq hn
    have hg := goes_raced hs hc hk fun winner => (next winner).start_goes
    rw [polls] at ho
    rw [ho] at hg
    rw [poll, rest, owned]
    exact hg

end Activity

end Trampoline
