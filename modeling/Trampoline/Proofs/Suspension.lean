import Trampoline.Proofs.History.Polls
import Trampoline.Proofs.Store.Origins

/-!
When a suspended description goes on. A request that was told to wait does not put its instruction into
the slot by itself, so a description that takes the instruction in the slot back, and polls no request
after that, is stuck although it waits for an instruction. Nothing else can make it stuck.
-/
namespace Trampoline

variable {I V X α T P S : Type}

/-- Whether a slot is taken. -/
def Store.taken (store : Store I V X) (k : Nat) : Bool :=
  (store.slotAt k).pending.isSome

namespace Happening

/-- Whether slot number `k` is taken after something that happened to a description. -/
def settles (k : Nat) (taken : Bool) : Happening I V → Bool
  | issued slot _ => if slot = k then true else taken
  | withdrawn slot _ => if slot = k then false else taken
  | _ => taken

/-- The last that happened to slot number `k` is that an instruction was taken back. -/
def EndsWithdrawn (k : Nat) (happenings : List (Happening I V)) : Prop :=
  ∃ (before after : List (Happening I V)) (r : Nat),
    happenings = before ++ .withdrawn k r :: after ∧ ∀ s, .issued k s ∉ after

theorem endsWithdrawn_cons {k : Nat} {e : Happening I V} {rest : List (Happening I V)} :
    EndsWithdrawn k (e :: rest) ↔
      ((∃ r, e = .withdrawn k r) ∧ ∀ s, .issued k s ∉ rest) ∨ EndsWithdrawn k rest := by
  constructor
  · rintro ⟨_ | ⟨e', before⟩, after, r, he, hn⟩
    · cases he
      exact .inl ⟨⟨r, rfl⟩, hn⟩
    · cases he
      exact .inr ⟨before, after, r, rfl, hn⟩
  · rintro (⟨⟨r, rfl⟩, hn⟩ | ⟨before, after, r, rfl, hn⟩)
    · exact ⟨[], rest, r, rfl, hn⟩
    · exact ⟨e :: before, after, r, rfl, hn⟩

/-- A slot ends up free exactly if it was free and nothing came in, or what came in last was taken
back. -/
theorem foldl_settles_eq_false_iff {k : Nat} {taken : Bool} {happenings : List (Happening I V)} :
    happenings.foldl (settles k) taken = false ↔
      (taken = false ∧ ∀ s, .issued k s ∉ happenings) ∨ EndsWithdrawn k happenings := by
  induction happenings generalizing taken with
  | nil =>
    have hn : ¬ EndsWithdrawn k ([] : List (Happening I V)) := by
      rintro ⟨before, after, r, he, _⟩
      simp at he
    simp [hn]
  | cons e rest ih =>
    rw [List.foldl_cons, ih, endsWithdrawn_cons]
    by_cases hi : ∃ s, e = .issued k s
    · obtain ⟨s, rfl⟩ := hi
      have hm : ¬ ∀ t, .issued k t ∉ Happening.issued k s :: rest := fun h => h s List.mem_cons_self
      simp only [settles, if_true, Bool.true_eq_false, hm, reduceCtorEq, exists_false, false_and,
        and_false, false_or]
    have hm : (∀ s, .issued k s ∉ e :: rest) ↔ ∀ s, .issued k s ∉ rest :=
      forall_congr' fun s => by
        rw [List.mem_cons, not_or, and_iff_right fun he => hi ⟨s, he.symm⟩]
    rw [hm]
    by_cases hw : ∃ r, e = .withdrawn k r
    · have hs : settles k taken e = false := by
        obtain ⟨r, rfl⟩ := hw
        exact if_pos rfl
      simp only [hs, hw, true_and]
      exact ⟨.inr, Or.rec (fun h => .inl h.2) id⟩
    · have hs : settles k taken e = taken := by
        cases e <;> simp_all [settles]
      simp only [hs, hw, false_and, false_or]

/-- A slot that ends up taken was taken before, or something came in. -/
theorem issued_of_foldl_settles {k : Nat} {taken : Bool} {happenings : List (Happening I V)}
    (h : happenings.foldl (settles k) taken = true) :
    taken = true ∨ ∃ s, .issued k s ∈ happenings := by
  by_cases hs : ∃ s, .issued k s ∈ happenings
  · exact .inr hs
  · cases taken with
    | true => exact .inl rfl
    | false =>
      rw [foldl_settles_eq_false_iff.mpr (.inl ⟨rfl, not_exists.mp hs⟩)] at h
      cases h

end Happening

namespace Store

theorem taken_poll {store : Store I V X} {k : Nat} (hk : k < store.slots.size) (r : Nat) :
    (store.poll r).2.taken k =
      (store.polling r).foldl (Happening.settles k) (store.taken k) := by
  suffices h : ∀ {answer store'}, Polling store r answer store' →
      store'.taken k = (store.polling r).foldl (Happening.settles k) (store.taken k) from
    h (poll_cases store r)
  have quiet (h : store.issues? r = none) :
      (store.polling r).foldl (Happening.settles k) (store.taken k) = store.taken k := by
    rw [polling, h]
    split <;> rfl
  intro answer store' h
  cases h with
  | absent hq => rw [quiet (by rw [issues?, hq])]
  | dropped q hq hd =>
    rw [quiet (issues?_eq_none hq fun _ h => by rw [hd] at h; cases h)]
  | held q hq hn =>
    rw [quiet (issues?_eq_none hq fun _ _ h => by rw [hn] at h; cases h)]
  | read q hq _ hn =>
    rw [quiet (issues?_eq_none hq fun _ _ h => by rw [hn] at h; cases h)]
    rfl
  | behind q i hq _ _ hp => rw [quiet (issues?_eq_none hq fun _ _ _ => hp)]
  | issued q i hq hd hi hp =>
    rw [polling, if_pos (alive_of_not_dropped hq hd), issues?_eq_some hq hd hi hp]
    by_cases hj : q.slot = k
    · subst hj
      simp [Happening.settles, taken, slotAt_occupy hk]
    · simp [Happening.settles, taken, slotAt_occupy_of_ne i hj, hj]

theorem taken_drop (store : Store I V X) (k r : Nat) :
    (store.drop r).taken k =
      (store.dropping r).foldl (Happening.settles k) (store.taken k) := by
  cases hq : store.requests[r]? with
  | none =>
    rw [drop_of_none hq, dropping, alive, hq]
    rfl
  | some q =>
    rw [taken, slotAt_drop hq, dropping, withdraws?_eq hq]
    cases hh : store.holding q with
    | false => cases store.alive r <;> simp [Happening.settles, taken]
    | true =>
      obtain ⟨t, hs⟩ := standing_of_holding hh
      rw [if_pos (alive_of_standing hq (by simp [hs]))]
      by_cases hj : q.slot = k <;> simp [hj, Happening.settles, taken]

theorem taken_act {store : Store I V X} {k : Nat} (hk : k < store.slots.size)
    (action : Action I X) :
    (store.act k action).2.taken k =
      (store.acting action).foldl (Happening.settles k) (store.taken k) := by
  cases action with
  | request i => rfl
  | poll r => exact taken_poll hk r
  | drop r => exact taken_drop store k r
  | look => rfl
  | share x => rfl

/-- A request that is told to wait finds its slot taken, or takes it. -/
theorem taken_or_issues {store : Store I V X} {r : Nat} {q : Request I}
    (hq : store.requests[r]? = some q) (ha : store.alive r = true) (h : (store.poll r).1 = none) :
    store.taken q.slot = true ∨ store.issues? r = some q.slot := by
  suffices hp : ∀ {answer store'}, Polling store r answer store' → answer = none →
      store.taken q.slot = true ∨ store.issues? r = some q.slot from hp (poll_cases store r) h
  intro answer store' hp hn
  cases hp with
  | absent hq' => simp [hq] at hq'
  | dropped p hp hs => simp [alive_eq hp, hs] at ha
  | read => cases hn
  | held p hp _ hh =>
    obtain rfl := Option.some.inj (hp.symm.trans hq)
    obtain ⟨t, issued, _, ht⟩ := holding_eq_true_iff.mp hh
    exact .inl (by rw [taken, ht]; rfl)
  | behind p i hp _ _ ht =>
    obtain rfl := Option.some.inj (hp.symm.trans hq)
    exact .inl (Option.isSome_iff_ne_none.mpr ht)
  | issued p i hp hd hi ht =>
    obtain rfl := Option.some.inj (hp.symm.trans hq)
    exact .inr (issues?_eq_some hp hd hi ht)

end Store

namespace Script

theorem taken_run {k : Nat} (script : Script I V X α) {store : Store I V X}
    (hk : k < store.slots.size) :
    (script.run k store).2.taken k =
      (script.happenings k store).foldl (Happening.settles k) (store.taken k) := by
  induction script generalizing store with
  | done a => rfl
  | act action next ih =>
    rw [happenings, List.foldl_append, ← Store.taken_act hk]
    exact ih _ (Nat.lt_of_lt_of_eq hk (Store.size_slots_act store k action).symm)

/-- If a request of the description was told to wait, its slot was taken at some time. -/
theorem taken_or_issued {k r : Nat} (script : Script I V X α) {store : Store I V X}
    {q : Request I} (hk : k < store.slots.size)
    (hq : (script.run k store).2.requests[r]? = some q) (hs : q.slot = k)
    (h : .polled r none ∈ script.happenings k store) :
    store.taken k = true ∨ ∃ s, .issued k s ∈ script.happenings k store := by
  induction script generalizing store with
  | done a => simp [happenings] at h
  | act action next ih =>
    rw [happenings, List.mem_append] at h
    have hk' := Nat.lt_of_lt_of_eq hk (Store.size_slots_act store k action).symm
    obtain h | h := h
    · obtain ⟨rfl, ha, hn⟩ := Store.polled_of_mem_acting h
      obtain ⟨p, hp, _⟩ := Store.exists_of_alive ha
      have ho := Store.origins_run (Store.origins_of_some hp) k (.act (.poll r) next)
      obtain rfl : p.slot = k := by
        rw [Store.origins_of_some hq] at ho
        exact (congrArg Prod.snd (Option.some.inj ho)).symm.trans hs
      obtain ht | hi := Store.taken_or_issues hp ha hn.symm
      · exact .inl ht
      · refine .inr ⟨r, ?_⟩
        rw [happenings, Store.acting, Store.polling, if_pos ha, hi]
        simp
    · obtain ht | ⟨s, hm⟩ := ih _ hk' hq h
      · rw [Store.taken_act hk] at ht
        obtain ht | ⟨s, hm⟩ := Happening.issued_of_foldl_settles ht
        · exact .inl ht
        · exact .inr ⟨s, by rw [happenings]; exact List.mem_append_left _ hm⟩
      · exact .inr ⟨s, by rw [happenings]; exact List.mem_append_right _ hm⟩

end Script

namespace Language

/-- What comes of a resumption that ends in a suspension is in the slot. -/
theorem resumeAt_of_suspended (l : Language I V X T P S) {k : Nat} {s rest : S}
    {store : Store I V X} (hs : ((l.resume s).run k store).1 = .suspended rest) :
    (((l.resume s).run k store).2.taken k = false ∧
      (l.resumeAt k s store).1 = .error .foreignSuspension) ∨
    (((l.resume s).run k store).2.taken k = true ∧
      ∃ issued, (l.resumeAt k s store).1 = .ok (.await issued (.resume k rest))) := by
  generalize hr : (l.resume s).run k store = resumed at hs ⊢
  obtain ⟨progress, resumed⟩ := resumed
  cases hs
  cases hp : (resumed.slotAt k).pending with
  | none =>
    left
    simp [resumeAt, hr, Store.collect, Store.taken, hp]
  | some entry =>
    right
    simp [resumeAt, hr, Store.collect, Store.taken, hp]

/-- A description that is suspended, with a request of its own that was told to wait in this very
resumption, is stuck exactly if the last that happened to its slot is that an instruction was taken
back. In all other cases an instruction comes out. It makes no difference what else the description
did, and whether the request was told to wait because of its own instruction or because of another. -/
theorem foreign_iff_endsWithdrawn (l : Language I V X T P S) {k r : Nat} {s rest : S}
    {store : Store I V X} {q : Request I} (hk : k < store.slots.size)
    (hs : ((l.resume s).run k store).1 = .suspended rest)
    (hq : ((l.resume s).run k store).2.requests[r]? = some q) (ho : q.slot = k)
    (hp : .polled r none ∈ (l.resume s).happenings k store) :
    ((l.resumeAt k s store).1 = .error .foreignSuspension ↔
      Happening.EndsWithdrawn k ((l.resume s).happenings k store)) ∧
    ((∃ issued, (l.resumeAt k s store).1 = .ok (.await issued (.resume k rest))) ↔
      ¬ Happening.EndsWithdrawn k ((l.resume s).happenings k store)) := by
  have hf : ((l.resume s).run k store).2.taken k = false ↔
      Happening.EndsWithdrawn k ((l.resume s).happenings k store) := by
    rw [Script.taken_run _ hk, Happening.foldl_settles_eq_false_iff, or_iff_right]
    rintro ⟨ht, hi⟩
    obtain ht' | ⟨s, hm⟩ := Script.taken_or_issued _ hk hq ho hp
    · rw [ht] at ht'
      cases ht'
    · exact hi s hm
  rw [← hf]
  obtain ⟨ht, he⟩ | ⟨ht, issued, he⟩ := l.resumeAt_of_suspended hs <;> simp [ht, he]

/-! ### A request that is overtaken -/

/-- Makes two requests, polls both and drops the first, whose instruction is in the slot. -/
def overtaken : Script Bool Unit Unit (Progress Unit Unit) := do
  let first ← .request false
  let second ← .request true
  let _ ← .poll first
  let _ ← .poll second
  .drop first
  return .suspended ()

/-- The description that does so, and owns the second request. -/
def overtaking : Language Bool Unit Unit Unit Unit Unit where
  form _ := .describe ()
  resume _ := overtaken
  owned _ := [1]

private theorem overtaken_run :
    overtaken.run 0 (Store.fresh ()).newSlot.2 =
      (.suspended (), ⟨#[.empty, .empty], #[⟨1, none⟩],
        #[⟨⟨false, 0⟩, 0, none, some 1, true⟩, .fresh ⟨true, 1⟩ 0], ()⟩) :=
  rfl

private theorem overtaken_happenings :
    overtaken.happenings 0 (Store.fresh ()).newSlot.2 =
      [.requested 0, .requested 1, .polled 0 none, .issued 0 0, .polled 1 none, .dropped 0,
        .withdrawn 0 0] :=
  rfl

theorem foreign_of_overtaking :
    Happening.EndsWithdrawn 0 (overtaken.happenings 0 (Store.fresh ()).newSlot.2) ∧
      (overtaking.resumeAt 0 () (Store.fresh ()).newSlot.2).1 = .error .foreignSuspension := by
  have hw : Happening.EndsWithdrawn 0 (overtaken.happenings 0 (Store.fresh ()).newSlot.2) := by
    rw [overtaken_happenings]
    exact ⟨[.requested 0, .requested 1, .polled 0 none, .issued 0 0, .polled 1 none, .dropped 0], [],
      0, rfl, fun _ => List.not_mem_nil⟩
  have hs : ((overtaking.resume ()).run 0 (Store.fresh ()).newSlot.2).1 = .suspended () :=
    congrArg Prod.fst overtaken_run
  have hq : ((overtaking.resume ()).run 0 (Store.fresh ()).newSlot.2).2.requests[1]? =
      some (.fresh ⟨true, 1⟩ 0) :=
    congrArg (fun resumed => resumed.2.requests[1]?) overtaken_run
  have hp : .polled 1 none ∈ (overtaking.resume ()).happenings 0 (Store.fresh ()).newSlot.2 := by
    change _ ∈ overtaken.happenings 0 (Store.fresh ()).newSlot.2
    simp [overtaken_happenings]
  exact ⟨hw, (overtaking.foreign_iff_endsWithdrawn Nat.zero_lt_one hs hq rfl hp).1.mpr hw⟩

/-- Not every description comes out with an instruction when it is suspended and one of its requests,
which it has not dropped, was told to wait. -/
theorem not_await_of_polled :
    ¬ ∀ (l : Language Bool Unit Unit Unit Unit Unit) (k r : Nat) (s rest : Unit)
        (store : Store Bool Unit Unit) (q : Request Bool), k < store.slots.size →
      ((l.resume s).run k store).1 = .suspended rest →
      ((l.resume s).run k store).2.requests[r]? = some q → q.slot = k → q.dropped = false →
      .polled r none ∈ (l.resume s).happenings k store →
      ∃ issued, (l.resumeAt k s store).1 = .ok (.await issued (.resume k rest)) := by
  intro h
  have hp : .polled 1 none ∈ overtaken.happenings 0 (Store.fresh ()).newSlot.2 := by
    simp [overtaken_happenings]
  obtain ⟨issued, he⟩ := h overtaking 0 1 () () (Store.fresh ()).newSlot.2
    (.fresh ⟨true, 1⟩ 0) Nat.zero_lt_one (congrArg Prod.fst overtaken_run)
    (congrArg (fun resumed => resumed.2.requests[1]?) overtaken_run) rfl rfl hp
  have hf : (overtaking.resumeAt 0 () (Store.fresh ()).newSlot.2).1 = .error .foreignSuspension :=
    rfl
  rw [hf] at he
  cases he

end Language

end Trampoline
