import Trampoline.Proofs.Ensemble.Basic
import Trampoline.Proofs.Ensemble.Belongings

/-!
What holds in every state that programs running side by side can reach: each description has a slot of its
own once it has begun, every request was made by the description whose slot it is for, and every run has in
hand and hands on only what was requested by its own description.
-/
namespace Trampoline.Cast

variable {ι I V X : Type} {c : Cast ι I V X}

/-- What every turn preserves. -/
structure State.Kept (st : c.State) (slot : ι → Option Nat) : Prop where
  coherent : st.store.Coherent
  sound : ∀ i, (st.run i).stage.Sound st.store
  described : ∀ i, (st.run i).stage.Described (slot i)
  held : ∀ {i : ι} {issued : Issued I}, (st.run i).stage.hand.issued? = some issued →
    ∃ k, slot i = some k ∧ st.store.Owns k issued
  told : ∀ {i : ι} {e : Happening I V}, (i, e) ∈ st.history →
    ∃ k, slot i = some k ∧ e.Belongs k st.store
  made : ∀ {r : Nat} {o : Issued I × Nat}, st.store.origins[r]? = some o →
    ∃ i, slot i = some o.2 ∧ (i, .requested r) ∈ st.history
  opened : ∀ {i : ι} {k : Nat}, slot i = some k → (i, .opened k) ∈ st.history
  slot_lt : ∀ {i : ι} {k : Nat}, slot i = some k → k < st.store.slots.size
  slot_inj : ∀ {i j : ι} {k : Nat}, slot i = some k → slot j = some k → i = j

namespace State.Kept

variable {st : c.State} {slot : ι → Option Nat} (h : st.Kept slot)

include h

theorem opened_iff {i : ι} {k : Nat} : (i, .opened k) ∈ st.history ↔ slot i = some k := by
  refine ⟨fun hm => ?_, h.opened⟩
  obtain ⟨j, hj, rfl⟩ := h.told hm
  exact hj

/-- A request is for the slot of the description that makes it. -/
theorem requested_iff {i : ι} {r : Nat} : (i, .requested r) ∈ st.history ↔
    ∃ q, st.store.requests[r]? = some q ∧ slot i = some q.slot := by
  constructor
  · intro hm
    obtain ⟨k, hk, issued, ho⟩ := h.told hm
    rw [Store.origins, Array.getElem?_map, Option.map_eq_some_iff] at ho
    obtain ⟨q, hq, hqo⟩ := ho
    cases hqo
    exact ⟨q, hq, hk⟩
  · rintro ⟨q, hq, hi⟩
    obtain ⟨j, hj, hm⟩ := h.made (Store.origins_of_some hq)
    exact h.slot_inj hi hj ▸ hm

variable [DecidableEq ι] [InstructionSet I]

/-- A turn of the run of a description. -/
private theorem leg (i : ι) :
    ∃ slot', Leg (slot i) (st.run i).stage.hand st.store (st.events i) slot'
      ((st.turn i).run i).stage.hand (st.turn i).store ∧
      ((st.turn i).run i).stage.Described slot' := by
  have hs : (st.scene i).Sound := h.sound i
  have hr : Scene.Reached (slot i) (st.own i) (st.run i).stage.hand st.store
      ((st.scene i).turn (c.language i) (c.config i) (c.handler i) .own) := hs.reached (h.described i)
  rw [← st.scene_turn i] at hr
  obtain ⟨slot', events, hh, hl, hd⟩ := hr
  have he : st.events i = events := List.append_cancel_left ((st.own_turn_self i).symm.trans hh)
  exact ⟨slot', he ▸ hl, hd⟩

section Turn

variable {i : ι} {slot' : Option Nat}
  (hl : Leg (slot i) (st.run i).stage.hand st.store (st.events i) slot'
    ((st.turn i).run i).stage.hand (st.turn i).store)

include hl

/-- Slots are never given up. -/
private theorem keep {j : ι} {k : Nat} (hj : slot j = some k) :
    Function.update slot i slot' j = some k := by
  by_cases hij : j = i
  · subst hij
    rw [Function.update_self]
    obtain hg | ⟨hg, _⟩ := hl.given h.coherent
    · exact hg.trans hj
    · rw [hg] at hj
      cases hj
  · rwa [Function.update_of_ne hij]

/-- A slot that was not known before is a new one. -/
private theorem known {j : ι} {k : Nat} (hj : Function.update slot i slot' j = some k) :
    slot j = some k ∨ (j = i ∧ k = st.store.slots.size ∧ .opened k ∈ st.events i ∧
      k < (st.turn i).store.slots.size) := by
  by_cases hij : j = i
  · subst hij
    rw [Function.update_self] at hj
    obtain hg | ⟨_, hg, hm, hz⟩ := hl.given h.coherent
    · exact .inl (hg ▸ hj)
    · obtain rfl := Option.some.inj (hg.symm.trans hj)
      exact .inr ⟨rfl, rfl, hm, hz⟩
  · exact .inl (by rwa [Function.update_of_ne hij] at hj)

private theorem sound_turn (j : ι) : ((st.turn i).run j).stage.Sound (st.turn i).store := by
  by_cases hij : j = i
  · subst hij
    have hs : ((st.scene j).turn (c.language j) (c.config j) (c.handler j) .own).Sound :=
      Scene.Sound.own (h.sound j)
    rwa [← st.scene_turn j] at hs
  · obtain ⟨deeds, hs, _⟩ := hl.doneTo
    rw [st.run_turn_of_ne i hij, ← hs]
    exact (h.sound j).deeds deeds

private theorem held_turn {j : ι} {issued : Issued I}
    (hi : ((st.turn i).run j).stage.hand.issued? = some issued) :
    ∃ k, Function.update slot i slot' j = some k ∧ (st.turn i).store.Owns k issued := by
  have hb := hl.belonging h.coherent h.held
  by_cases hij : j = i
  · subst hij
    rw [Function.update_self]
    exact hb.held hi
  · rw [st.run_turn_of_ne i hij] at hi
    obtain ⟨k, hk, ho⟩ := h.held hi
    exact ⟨k, h.keep hl hk, ho.recall hb.recalls⟩

private theorem told_turn {j : ι} {e : Happening I V} (he : (j, e) ∈ (st.turn i).history) :
    ∃ k, Function.update slot i slot' j = some k ∧ e.Belongs k (st.turn i).store := by
  have hb := hl.belonging h.coherent h.held
  rw [st.history_turn, List.mem_append] at he
  rcases he with he | he
  · obtain ⟨k, hk, hbe⟩ := h.told he
    exact ⟨k, h.keep hl hk, hbe.recall hb.recalls⟩
  · obtain ⟨e', he', hje⟩ := List.mem_map.mp he
    cases hje
    rw [Function.update_self]
    exact hb.told he'

private theorem inj_turn {j j' : ι} {k : Nat} (hj : Function.update slot i slot' j = some k)
    (hj' : Function.update slot i slot' j' = some k) : j = j' := by
  rcases h.known hl hj with hs | ⟨hs, hk, _⟩ <;> rcases h.known hl hj' with hs' | ⟨hs', hk', _⟩
  · exact h.slot_inj hs hs'
  · exact absurd (h.slot_lt hs) (hk' ▸ Nat.lt_irrefl _)
  · exact absurd (h.slot_lt hs') (hk ▸ Nat.lt_irrefl _)
  · exact hs.trans hs'.symm

end Turn

theorem turn (i : ι) : ∃ slot', (st.turn i).Kept (Function.update slot i slot') ∧
    Leg (slot i) (st.run i).stage.hand st.store (st.events i) slot'
      ((st.turn i).run i).stage.hand (st.turn i).store := by
  obtain ⟨slot', hl, hd⟩ := h.leg i
  have hb := hl.belonging h.coherent h.held
  refine ⟨slot', ?_, hl⟩
  constructor
  case coherent => exact hb.coherent
  case sound => exact h.sound_turn hl
  case described =>
    intro j
    by_cases hij : j = i
    · subst hij
      rwa [Function.update_self]
    · rw [Function.update_of_ne hij, st.run_turn_of_ne i hij]
      exact h.described j
  case held => exact h.held_turn hl
  case told => exact h.told_turn hl
  case made =>
    intro r o ho
    obtain ho | ⟨hs, hm⟩ := hb.made ho
    · obtain ⟨j, hj, hm⟩ := h.made ho
      exact ⟨j, h.keep hl hj, mem_turn i hm⟩
    · exact ⟨i, by rw [Function.update_self, hs], mem_turn_of_events hm⟩
  case opened =>
    intro j k hj
    obtain hj | ⟨rfl, _, hm, _⟩ := h.known hl hj
    · exact mem_turn i (h.opened hj)
    · exact mem_turn_of_events hm
  case slot_lt =>
    intro j k hj
    obtain hj | ⟨_, _, _, hz⟩ := h.known hl hj
    · exact Nat.lt_of_lt_of_le (h.slot_lt hj) hb.slots
    · exact hz
  case slot_inj => exact h.inj_turn hl

end State.Kept

theorem kept_first (c : Cast ι I V X) (shared : X) : (c.first shared).Kept fun _ => none := by
  have hn (i : ι) : ((c.first shared).run i).stage = .reducing (.delay (.describe (c.start i))) := by
    simp only [first, Run.start, Language.node, c.described i]
  refine ⟨.fresh shared, fun i => ?_, fun i => ?_, fun {i issued} hi => ?_, nofun, fun {r o} ho => ?_,
    nofun, nofun, nofun⟩
  · rw [hn]
    exact .delay (.fresh shared) trivial
  · rw [hn]
    exact .fresh _
  · rw [hn] at hi
    cases hi
  · simp [first, Store.fresh, Store.origins] at ho

variable [DecidableEq ι] [InstructionSet I]

/-- In every order of turns. -/
theorem kept (c : Cast ι I V X) (shared : X) (schedule : List ι) :
    ∃ slot, (c.play shared schedule).Kept slot := by
  induction schedule using List.reverseRecOn with
  | nil => exact ⟨_, c.kept_first shared⟩
  | append_singleton schedule i ih =>
    obtain ⟨slot, h⟩ := ih
    rw [play_concat]
    obtain ⟨slot', h', _⟩ := h.turn i
    exact ⟨_, h'⟩

/-- What is steady holds of every run, as long as nobody else has its slot. -/
theorem steady_part {inv : List (Happening I V) → Store I V X → Hand I → Prop} {k : Nat}
    (hi : Steady (fun deed => deed ≠ .collect k) inv) {shared : X}
    (h : inv [] (Store.fresh shared) .free) (schedule : List ι) {i : ι}
    (hk : ∀ j, j ≠ i → (j, .opened k) ∉ (c.play shared schedule).history) :
    inv ((c.play shared schedule).heard i) (c.play shared schedule).store
      ((c.play shared schedule).run i).stage.hand := by
  induction schedule using List.reverseRecOn with
  | nil =>
    have hs : ((c.first shared).run i).stage.hand = .free := by
      simp only [first, Run.start, Language.node, c.described i, Stage.hand]
    change inv [] (Store.fresh shared) ((c.first shared).run i).stage.hand
    rwa [hs]
  | append_singleton schedule j ih =>
    have hp : (c.play shared schedule).history <+: (c.play shared (schedule ++ [j])).history :=
      c.history_play schedule [j]
    have ih := ih fun j hj hm => hk j hj (hp.mem hm)
    obtain ⟨slot, hkept⟩ := c.kept shared schedule
    rw [play_concat] at hk ⊢
    generalize c.play shared schedule = st at hkept ih hk ⊢
    by_cases hj : j = i
    · subst hj
      have hs : (st.part j).Sound := hkept.sound j
      change inv ((st.turn j).part j).history ((st.turn j).part j).store
        ((st.turn j).part j).run.stage.hand
      rw [st.part_turn j]
      exact hi.own hs ih
    · -- To all others a turn of a run is a number of deeds.
      obtain ⟨slot', hkept', hl⟩ := hkept.turn j
      obtain ⟨deeds, hd, ht, hc⟩ := hl.doneTo
      rw [st.heard_turn_of_ne j (Ne.symm hj), st.run_turn_of_ne j (Ne.symm hj), ← ht, ← hd]
      refine hi.deeds ih fun deed hm => ?_
      rintro rfl
      exact hk j hj (hkept'.opened (by rw [Function.update_self, hc k hm]))

end Trampoline.Cast
