import Trampoline.Proofs.Ensemble.Frames
import Trampoline.Proofs.Ensemble.Kept

/-!
Descriptions that wait for nothing but requests of others. Nothing comes into the slot of such a description
in its resumption, so that it is stuck, unless one of its own requests is there from the beginning to the
end. That one was polled by somebody else, between the resumptions.
-/
namespace Trampoline

variable {I V X α T P S H : Type}

/-- A request that gets its slot was polled, and told to wait. -/
theorem Script.polled_of_issued {k j r : Nat} {script : Script I V X α} {store : Store I V X}
    (h : .issued j r ∈ script.happenings k store) :
    .polled r none ∈ script.happenings k store ∧
      ∃ o, (script.run k store).2.origins[r]? = some o ∧ o.2 = j := by
  induction script generalizing store with
  | done a => simp [happenings] at h
  | act action next ih =>
    rw [happenings, List.mem_append] at h
    rw [happenings, List.mem_append]
    rcases h with h | h
    · cases action with
      | request i => simp [Store.acting] at h
      | look => simp [Store.acting] at h
      | share x => simp [Store.acting] at h
      | drop s => obtain h | ⟨_, h⟩ := Store.mem_dropping h <;> cases h
      | poll s =>
        have ht := Store.told_poll store s
        rw [Store.acting] at h ⊢
        generalize hs : (store.poll s).2 = store', store.polling s = events at ht h ⊢
        cases ht with
        | gone => simp at h
        | waits => simp at h
        | read => simp at h
        | issued q i hq _ _ _ =>
          simp only [List.mem_cons, reduceCtorEq, Happening.issued.injEq, List.not_mem_nil, or_false,
            false_or] at h
          obtain ⟨rfl, rfl⟩ := h
          exact ⟨.inl List.mem_cons_self, q.origin,
            Store.origins_run (Store.origins_of_some hq) k (.act (.poll r) next), rfl⟩
    · obtain ⟨hp, ho⟩ := ih _ h
      exact ⟨.inr hp, ho⟩

/-- What is in a slot after an action was there before, or was put there by the action. -/
theorem Store.occupies_act {store : Store I V X} (hc : store.Coherent) {k r : Nat} (j : Nat)
    (action : Action I X) (h : (store.act j action).2.Occupies k r) :
    store.Occupies k r ∨ .issued k r ∈ (store.acting action : List (Happening I V)) := by
  cases action with
  | request i => exact .inl ((occupies_request hc j i r).mp h)
  | poll s =>
    have ht := store.told_poll s
    change (store.poll s).2.Occupies k r at h
    rw [acting]
    generalize (store.poll s).2 = store', store.polling s = events at ht h ⊢
    cases ht with
    | gone => exact .inl h
    | waits => exact .inl h
    | read q answer cell => exact .inl ((occupies_putCell hc _ cell r).mp h)
    | issued q i hq hd hi hf =>
      rw [occupies_occupy hq hd hi hf hc] at h
      split at h
      · rename_i hk
        subst hk h
        exact .inr (List.mem_cons_of_mem _ List.mem_cons_self)
      · exact .inl h
  | drop s => exact .inl ((occupies_drop hc s r).mp h).2
  | look => exact .inl h
  | share x => exact .inl h

theorem Script.occupies_run {k j r : Nat} {script : Script I V X α} {store : Store I V X}
    (hc : store.Coherent) (hj : j < store.slots.size) (h : (script.run j store).2.Occupies k r) :
    store.Occupies k r ∨ .issued k r ∈ script.happenings j store := by
  induction script generalizing store with
  | done a => exact .inl h
  | act action next ih =>
    have hj' := Nat.lt_of_lt_of_eq hj (Store.size_slots_act store j action).symm
    rw [happenings, List.mem_append]
    obtain h | h := ih _ (hc.act hj action) hj' h
    · exact (Store.occupies_act hc j action h).imp id .inl
    · exact .inr (.inr h)

/-- What is in a slot is the instruction of the request that occupies it. -/
theorem Store.pending_iff_occupies {store : Store I V X} (hc : store.Coherent) {k r : Nat}
    {q : Request I} (hq : store.requests[r]? = some q) :
    (∃ n, (store.slotAt k).pending = some (n, q.issued)) ↔ store.Occupies k r := by
  constructor
  · rintro ⟨n, hp⟩
    obtain ⟨s, v, hv, hh, hk, hi⟩ := exists_held hc hp
    obtain rfl := hc.cell_inj (request_of_view hv) hq (congrArg Issued.cell hi)
    exact ⟨v, hv, hh, hk⟩
  · rintro ⟨v, hv, hh, rfl⟩
    cases (view_eq hq).symm.trans hv
    exact (held_iff hc hv).mp hh

section Resumption

variable (l : Language I V X T P S) {k : Nat} {s rest : S} {store : Store I V X}
  (hs : ((l.resume s).run k store).1 = .suspended rest)

include hs

/-- What comes of a resumption that ends in a suspension, by what is in the slot then. -/
theorem Language.resumeAt_eq_elim :
    (l.resumeAt k s store).1 = (((l.resume s).run k store).2.slotAt k).pending.elim
      (.error .foreignSuspension) fun entry => .ok (.await entry.2 (.resume k rest)) := by
  generalize hr : (l.resume s).run k store = resumed at hs ⊢
  obtain ⟨progress, resumed⟩ := resumed
  cases hs
  cases hp : (resumed.slotAt k).pending <;> simp [resumeAt, hr, Store.collect, hp]

/-- A description that is suspended is stuck exactly if nobody is in its slot. -/
theorem Language.stuck_iff (hc : ((l.resume s).run k store).2.Coherent) :
    (l.resumeAt k s store).1 = .error .foreignSuspension ↔
      ∀ r, ¬ ((l.resume s).run k store).2.Occupies k r := by
  have ht := not_congr (Store.taken_iff_occupies (k := k) hc)
  rw [not_exists] at ht
  rw [l.resumeAt_eq_elim hs, ← ht, Store.taken]
  cases (((l.resume s).run k store).2.slotAt k).pending <;> simp

/-- It goes on with the instruction of a request exactly if this request is in its slot. -/
theorem Language.goes_on_iff (hc : ((l.resume s).run k store).2.Coherent) {r : Nat} {q : Request I}
    (hq : ((l.resume s).run k store).2.requests[r]? = some q) :
    (l.resumeAt k s store).1 = .ok (.await q.issued (.resume k rest)) ↔
      ((l.resume s).run k store).2.Occupies k r := by
  rw [l.resumeAt_eq_elim hs, ← Store.pending_iff_occupies hc hq]
  cases (((l.resume s).run k store).2.slotAt k).pending with
  | none => simp
  | some entry =>
    obtain ⟨n, issued⟩ := entry
    simp

end Resumption

theorem Stage.built_eq_reducing_iff {N : Type} {built : Except BuildError (Node I T N)}
    {node : Node I T N} : Stage.built built = .reducing node ↔ built = .ok node := by
  cases built <;> simp [built]

/-- A run ends with the error that building its next node gave. -/
theorem Run.fails_iff_of_built {N : Type} {run : Run I T N H} {built : Except BuildError (Node I T N)}
    (h : run.stage = .built built) (e : BuildError) :
    run.outcome? = some (.error (.build e)) ↔ built = .error e := by
  rw [outcome?, h]
  cases built <;> simp [Stage.built]

/-- What is in the slot of a description that was told to wait by no request of its own was there when the
resumption began. -/
theorem Script.occupies_of_others {k r : Nat} {script : Script I V X α} {store : Store I V X}
    (hc : store.Coherent) (hk : k < store.slots.size)
    (hn : ∀ r q, .polled r none ∈ script.happenings k store →
      (script.run k store).2.requests[r]? = some q → q.slot ≠ k)
    (ho : (script.run k store).2.Occupies k r) : store.Occupies k r := by
  obtain ho | hi := occupies_run hc hk ho
  · exact ho
  · obtain ⟨hp, o, ho, hj⟩ := polled_of_issued hi
    rw [Store.origins, Array.getElem?_map, Option.map_eq_some_iff] at ho
    obtain ⟨q, hq, rfl⟩ := ho
    exact absurd hj (hn r q hp hq)

theorem Store.taken_collect (store : Store I V X) (k : Nat) :
    (store.collect k).2.taken k = false := by
  unfold Store.collect
  split
  · rename_i hp
    rw [taken, hp]
    rfl
  · dsimp only
    rw [taken, slotAt_vacate, if_pos rfl]
    rfl

/-- At the end of a resumption the slot is free. -/
theorem Language.taken_resumeAt (l : Language I V X T P S) (k : Nat) (s : S) (store : Store I V X) :
    (l.resumeAt k s store).2.taken k = false := by
  unfold Language.resumeAt
  generalize (l.resume s).run k store = resumed
  obtain ⟨progress, resumed⟩ := resumed
  have hf := resumed.taken_collect k
  cases progress with
  | finished value => exact hf
  | failed failure => exact hf
  | suspended rest =>
    cases hi : (resumed.collect k).1 with
    | some i =>
      simp only [hi]
      exact hf
    | none =>
      simp only [hi]
      exact Store.taken_dropAll_of_free _ hf

theorem Store.occupies_of_dropAll {k r : Nat} {store : Store I V X} (hc : store.Coherent)
    {rs : List Nat} (h : (store.dropAll rs).Occupies k r) : store.Occupies k r := by
  induction rs generalizing store with
  | nil => exact h
  | cons s rest ih => exact ((occupies_drop hc s r).mp (ih (hc.drop s) h)).2

/-- What others do brings a request into its slot only by polling it. -/
private theorem occupies_of_deeds {k r : Nat} {store : Store I V X} (hc : store.Coherent)
    {deeds : List (Deed I V X)} (h : (deeds.foldl Deed.apply store).Occupies k r) :
    store.Occupies k r ∨ .issued k r ∈ Deed.telling store deeds := by
  induction deeds generalizing store with
  | nil => exact .inl h
  | cons deed rest ih =>
    have hone : (deed.apply store).Coherent ∧ ((deed.apply store).Occupies k r →
        store.Occupies k r ∨ .issued k r ∈ deed.happenings store) := by
      cases deed with
      | act j action =>
        rw [Deed.apply, Deed.happenings]
        split
        · exact ⟨hc.act ‹_› action, Store.occupies_act hc j action⟩
        · exact ⟨hc, .inl⟩
      | newSlot =>
        refine ⟨hc.newSlot, fun ho => .inl ?_⟩
        rwa [Deed.apply, Store.Occupies, Store.view_newSlot] at ho
      | issue i =>
        refine ⟨hc.issue i, fun ho => .inl ?_⟩
        rwa [Deed.apply, Store.Occupies, Store.view_issue hc] at ho
      | putCell c cell =>
        exact ⟨hc.putCell c cell, fun ho => .inl ((Store.occupies_putCell hc c cell r).mp ho)⟩
      | collect j =>
        exact ⟨hc.collect j, fun ho => .inl ((store.occupies_collect j r).mp ho).2⟩
    obtain ho | hi := ih hone.1 h
    · exact (hone.2 ho).imp id fun hi => List.mem_append_left _ hi
    · exact .inr (List.mem_append_right _ hi)

namespace Scene

variable [InstructionSet I] {l : Language I V X T P S} {config : RunConfig}
  {handler : Handler I V H} {history : List (Happening I V)} {stats : RunStats} {state : H}
  {store filled : Store I V X} {scene : Scene I V X T P S H} {k : Nat} {s : S}

/-- The handler gives its answer in this poll, and the answer is put into the cell. -/
def Answers (handler : Handler I V H) (i : Issued I) (polls : Nat) (state : H)
    (store filled : Store I V X) : Prop :=
  ∃ value state' cell events full,
    handler.poll i.instruction polls state (store.cellAt i.cell) =
      ⟨.answered value, state', cell, events⟩ ∧
    cell.set value = .ok full ∧ filled = store.putCell i.cell full

/-- What the next turn of a run resumes, with the slot and the store to begin with. -/
inductive Resumes (config : RunConfig) (handler : Handler I V H) (scene : Scene I V X T P S H) :
    Nat → S → Store I V X → Prop
  | begins (s : S) : scene.run.stage = .reducing (.delay (.describe s)) →
      config.exceeded? (scene.run.stats.steps + 1) = none →
      Resumes config handler scene scene.store.slots.size s scene.store.newSlot.2
  | awaits (k : Nat) (s : S) (i : Issued I) (filled : Store I V X) :
      scene.run.stage = .reducing (.await i (.resume k s)) →
      config.exceeded? (scene.run.stats.steps + 1) = none →
      Answers handler i 0 scene.run.handler scene.store filled →
      Resumes config handler scene k s filled
  | goes (k : Nat) (s : S) (i : Issued I) (polls : Nat) (filled : Store I V X) :
      scene.run.stage = .dispatching i (.resume k s) polls →
      Answers handler i polls scene.run.handler scene.store filled →
      Resumes config handler scene k s filled

/-- In its next turn a description goes on from `s`, with `store` to begin with, and is suspended as `rest`.
The requests that tell it to wait are requests of others. -/
structure ReliesOnOthers (l : Language I V X T P S) (config : RunConfig) (handler : Handler I V H)
    (scene : Scene I V X T P S H) (k : Nat) (s : S) (store : Store I V X) (rest : S) : Prop where
  resumes : scene.Resumes config handler k s store
  suspended : ((l.resume s).run k store).1 = .suspended rest
  others : ∀ r q, .polled r none ∈ (l.resume s).happenings k store →
    ((l.resume s).run k store).2.requests[r]? = some q → q.slot ≠ k

private theorem stage_of_answers {i : Issued I} {polls : Nat} (hb : i.cell < store.cells.size)
    (h : Answers handler i polls state store filled) :
    (turn l config handler ⟨history, ⟨.dispatching i (.resume k s) polls, stats, state⟩, store⟩
      .own).run.stage = .built (l.resumeAt k s filled).1 := by
  obtain ⟨value, state', cell, events, full, hp, hf, rfl⟩ := h
  rw [turn_polled hb, hp]
  simp only [settled, Store.cellAt_putCell_self cell hb, hf, Store.putCell_putCell]
  rfl

/-- Where a run stands after a resumption. -/
theorem Resumes.stage (h : scene.Resumes config handler k s store) (hs : scene.Sound) :
    (scene.turn l config handler .own).run.stage = .built (l.resumeAt k s store).1 := by
  obtain ⟨history, ⟨stage, stats, state⟩, before⟩ := scene
  cases h with
  | begins s hst he =>
    cases hst
    rw [turn_delay he]
    rfl
  | awaits k s i _ hst he ha =>
    cases hst
    rw [turn_await he]
    exact stage_of_answers (hs.hand_lt rfl) ha
  | goes k s i polls _ hst ha =>
    cases hst
    exact stage_of_answers (hs.hand_lt rfl) ha

omit [InstructionSet I] in
/-- The slot of a resumption is the one that the description has, or a new one. What is in there was there
before the turn. -/
theorem Resumes.slot {slot : Option Nat} (h : scene.Resumes config handler k s store)
    (hs : scene.Sound) (hd : scene.run.stage.Described slot) :
    store.Coherent ∧ k < store.slots.size ∧
      ∀ r, store.Occupies k r → slot = some k ∧ scene.store.Occupies k r := by
  have hc : scene.store.Coherent := hs.coherent
  have filled {i : Issued I} {polls : Nat} {state : H} {before : Store I V X} (hc : before.Coherent)
      (ha : Answers handler i polls state before store) :
      store.Coherent ∧ store.slots = before.slots ∧ ∀ r, store.Occupies k r → before.Occupies k r := by
    obtain ⟨_, _, _, _, full, _, _, rfl⟩ := ha
    exact ⟨hc.putCell _ full, rfl, fun r => (Store.occupies_putCell hc _ full r).mp⟩
  obtain ⟨history, ⟨stage, stats, state⟩, before⟩ := scene
  cases h with
  | begins s hst he =>
    refine ⟨hc.newSlot, by simp [Store.newSlot], fun r ho => ?_⟩
    have ht := (Store.taken_iff_occupies hc.newSlot).mpr ⟨r, ho⟩
    rw [Store.taken_newSlot] at ht
    cases ht
  | awaits k s i _ hst he ha =>
    cases hst
    cases hd
    obtain ⟨hc', hz, ho⟩ := filled hc ha
    exact ⟨hc', hz ▸ hs.thunk _ rfl, fun r hr => ⟨rfl, ho r hr⟩⟩
  | goes k s i polls _ hst ha =>
    cases hst
    cases hd
    obtain ⟨hc', hz, ho⟩ := filled hc ha
    exact ⟨hc', hz ▸ hs.thunk _ rfl, fun r hr => ⟨rfl, ho r hr⟩⟩

/-- The slot is free, or nothing has come into it. -/
private def Brings (k : Nat) (store store' : Store I V X) : Prop :=
  store'.taken k = false ∨ ∀ r, store'.Occupies k r → store.Occupies k r

private theorem brings_settled (hc : store.Coherent) (i : Issued I) (rest : S)
    (reply : Except Failure V) : Brings k store
      (settled l history i (.resume k rest) stats store reply state).store := by
  cases reply with
  | error failure => exact .inr fun r => Store.occupies_of_dropAll hc
  | ok value =>
    rw [settled]
    split
    · exact .inl (l.taken_resumeAt k rest _)
    · exact .inr fun r => Store.occupies_of_dropAll hc

private theorem brings_polled (hc : store.Coherent) {i : Issued I} (hb : i.cell < store.cells.size)
    (rest : S) (polls : Nat) : Brings k store
      (turn l config handler ⟨history, ⟨.dispatching i (.resume k rest) polls, stats, state⟩, store⟩
        .own).store := by
  have hput {c : Nat} {cell : Cell V} {store' : Store I V X}
      (h : Brings k (store.putCell c cell) store') : Brings k store store' :=
    h.imp id fun ho r hr => (Store.occupies_putCell hc c cell r).mp (ho r hr)
  rw [turn_polled hb]
  split
  · exact hput (.inr fun _ => id)
  · exact hput (brings_settled (hc.putCell _ _) i rest _)
  · exact hput (brings_settled (hc.putCell _ _) i rest _)

/-- No turn of a run leaves an instruction in the slot of its description that was not there before. -/
theorem Sound.remains {slot : Option Nat} (h : scene.Sound) (hd : scene.run.stage.Described slot)
    (hk : slot = some k ∨ slot = none ∧ k = scene.store.slots.size) {r : Nat}
    (ho : (scene.turn l config handler .own).store.Occupies k r) : scene.store.Occupies k r := by
  have hc : scene.store.Coherent := h.coherent
  have hc' : (scene.turn l config handler .own).store.Coherent := (Sound.own h).coherent
  suffices hb : Brings k scene.store (scene.turn l config handler .own).store by
    obtain hf | hb := hb
    · rw [(Store.taken_iff_occupies hc').mpr ⟨r, ho⟩] at hf
      cases hf
    · exact hb r ho
  obtain ⟨history, ⟨stage, stats, state⟩, store⟩ := scene
  cases hd with
  | ended slot outcome =>
    rw [turn_ended]
    exact .inr fun _ => id
  | returned k value =>
    rw [turn_result]
    exact .inr fun _ => id
  | fresh s =>
    obtain ⟨⟨⟩⟩ | ⟨_, rfl⟩ := hk
    cases he : config.exceeded? (stats.steps + 1) with
    | some limit =>
      rw [turn_exceeded he (.inl rfl)]
      exact .inr fun _ => id
    | none =>
      rw [turn_delay he]
      exact .inl (l.taken_resumeAt _ s _)
  | awaiting k i rest =>
    obtain ⟨⟨⟩⟩ | ⟨⟨⟩, _⟩ := hk
    cases he : config.exceeded? (stats.steps + 1) with
    | some limit =>
      rw [turn_exceeded he (.inr ⟨i, rfl⟩)]
      exact .inr fun r => Store.occupies_of_dropAll hc
    | none =>
      rw [turn_await he]
      exact brings_polled hc (h.hand_lt rfl) rest 0
  | calling k i rest polls =>
    obtain ⟨⟨⟩⟩ | ⟨⟨⟩, _⟩ := hk
    exact brings_polled hc (h.hand_lt rfl) rest polls

end Scene

namespace Cast

variable {ι : Type} {c : Cast ι I V X} [DecidableEq ι] [InstructionSet I] {shared : X}

/-- What is in a slot between the turns was put there by another description. -/
theorem issued_of_occupies (schedule : List ι) {i : ι} {k r : Nat}
    (hi : (i, .opened k) ∈ (c.play shared schedule).history)
    (ho : (c.play shared schedule).store.Occupies k r) :
    ∃ j, j ≠ i ∧ (j, .issued k r) ∈ (c.play shared schedule).history := by
  induction schedule using List.reverseRecOn with
  | nil => cases hi
  | append_singleton schedule j ih =>
    obtain ⟨slot, hkept⟩ := c.kept shared schedule
    rw [play_concat] at hi ho ⊢
    generalize c.play shared schedule = st at hkept ih hi ho ⊢
    obtain ⟨slot', hkept', hl⟩ := hkept.turn j
    have hk := hkept'.opened_iff.mp hi
    -- What was in the slot before the turn is known already.
    have before (hk : slot i = some k) (ho : st.store.Occupies k r) :
        ∃ m, m ≠ i ∧ (m, .issued k r) ∈ (st.turn j).history := by
      obtain ⟨m, hm, he⟩ := ih (hkept.opened hk) ho
      exact ⟨m, hm, State.mem_turn j he⟩
    by_cases hj : j = i
    · subst hj
      rw [Function.update_self] at hk
      have hremains (hk : slot j = some k ∨ slot j = none ∧ k = st.store.slots.size) :
          st.store.Occupies k r := by
        have hs : (st.part j).Sound := hkept.sound j
        change ((st.turn j).part j).store.Occupies k r at ho
        rw [st.part_turn j] at ho
        exact hs.remains (hkept.described j) hk ho
      obtain rfl | ⟨hn, rfl, _⟩ := hl.given hkept.coherent
      · exact before hk (hremains (.inl hk))
      · obtain rfl := Option.some.inj hk
        obtain ⟨v, hv, _, hs⟩ := hremains (.inr ⟨hn, rfl⟩)
        have hlt := hkept.coherent.slot_lt (Store.request_of_view hv)
        exact absurd (hs ▸ hlt) (Nat.lt_irrefl _)
    · rw [Function.update_of_ne (Ne.symm hj)] at hk
      obtain ⟨deeds, hd, htell, _⟩ := hl.doneTo
      obtain ho | hr := occupies_of_deeds hkept.coherent (hd ▸ ho)
      · exact before hk ho
      · rw [htell] at hr
        exact ⟨j, hj, State.mem_turn_of_events (List.mem_filter.mp hr).1⟩

end Cast

end Trampoline
