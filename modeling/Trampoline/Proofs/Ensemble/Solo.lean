import Trampoline.Proofs.Ensemble.Kept
import Trampoline.Proofs.Ensemble.Dispatch
import Trampoline.Proofs.Ensemble.Frames
import Trampoline.Proofs.Ensemble.Mimics

/-!
A program that keeps to itself among others. Nobody else polls or drops its requests, it polls and drops no
others, and what others do to the shared value makes no difference to it. Its run then mimics the run of
the same program in a store of its own, turn by turn, in whatever order the turns are taken.
-/
namespace Trampoline

variable {ι I V X : Type}

/-- What others do makes no difference, if they leave the slot of the description alone. -/
theorem Stage.Mimics.others {T P S : Type} {same : Names → S → S → Prop}
    {alike : Names → X → X → Prop} {store store' next : Store I V X}
    {stage stage' : Stage I T (Thunk V P S)} (h : Mimics same alike store store' stage stage')
    {slot : Option Nat} (hd : stage.Described slot) (hr : store.Recalls next)
    (hu : ∀ k, slot = some k → store.Untouched k next)
    (hx : ∀ names x, alike names store.shared x → alike names next.shared x) :
    Mimics same alike next store' stage stage' := by
  cases h with
  | fresh hs ha => exact .fresh hs (hx _ _ ha)
  | returned value => exact .returned value
  | ended outcome => exact .ended outcome
  | awaiting hm ha hp hs =>
    cases hd
    exact .awaiting (hm.untouched (hu _ rfl)) (hx _ _ ha) (hp.recalled hr id) hs
  | calling polls hm ha hp hs =>
    cases hd
    exact .calling polls (hm.untouched (hu _ rfl)) (hx _ _ ha) (hp.recalled hr id) hs

namespace Cast

variable {c : Cast ι I V X}

/-- The requests that were polled and dropped, and by whom. -/
def State.touches (st : c.State) : List (ι × Nat) :=
  st.tells Happening.touched?

variable [DecidableEq ι] [InstructionSet I]

/-- A program keeps to itself in a schedule, where `alike` says how far the shared value makes a
difference to it. -/
structure Apart (c : Cast ι I V X) (shared : X) (schedule : List ι) (alike : Names → X → X → Prop)
    (i : ι) : Prop where
  /-- What it polls and drops are its own requests, and nobody else polls or drops them. -/
  touched : ∀ j r, (j, r) ∈ (c.play shared schedule).touches →
    (j = i ↔ (i, r) ∈ (c.play shared schedule).requests)
  /-- The turns of others leave the shared value as it was, as far as it makes a difference. -/
  unshared : ∀ before j after, schedule = before ++ j :: after → j ≠ i → ∀ names x,
    alike names (c.play shared before).store.shared x →
      alike names (c.play shared (before ++ [j])).store.shared x

/-- The program by itself. -/
def solo (c : Cast ι I V X) (shared : X) (i : ι) (n : Nat) :
    Scene I V X (c.T i) (c.P i) (c.S i) (c.H i) :=
  (Scene.start (c.language i) (c.program i) (c.state i) (.fresh shared)).alone (c.language i)
    (c.config i) (c.handler i) n

omit [DecidableEq ι] in
private theorem sound_solo (c : Cast ι I V X) (shared : X) (i : ι) (n : Nat) : (c.solo shared i n).Sound :=
  (Scene.sound_start (c.language i) (.fresh shared) (c.program i) (c.state i)).alone n

/-- Where only a program touches its requests, a turn of another leaves its slot alone. -/
private theorem untouched_turn {st : c.State} {slot : ι → Option Nat} (h : st.Kept slot) {i j : ι}
    (hj : j ≠ i) {k : Nat} (hk : slot i = some k)
    (htouched : ∀ r, (i, .requested r) ∈ (st.turn j).history → ∀ e ∈ st.events j,
      e.touched? ≠ some r) :
    st.store.Untouched k (st.turn j).store := by
  obtain ⟨slot', h', hleg⟩ := h.turn j
  have hk' : Function.update slot j slot' i = some k := by
    rwa [Function.update_of_ne (Ne.symm hj)]
  have hmade {r : Nat} {issued : Issued I}
      (ho : (st.turn j).store.origins[r]? = some (issued, k)) :
      (i, .requested r) ∈ (st.turn j).history := by
    obtain ⟨m, hm, hr⟩ := h'.made ho
    obtain rfl := h'.slot_inj hm hk'
    exact hr
  refine hleg.untouched h.coherent (fun hs => ?_) h.held hmade fun e he r hr hm =>
    htouched r hm e he hr
  exact hj (h'.slot_inj (by rw [Function.update_self, hs]) hk')

/-- Turn by turn, the run among others mimics the run of the program by itself. -/
theorem mimics_solo {shared shared' : X} {schedule : List ι} {i : ι}
    {same : Names → c.S i → c.S i → Prop} {alike : Names → X → X → Prop}
    (ha : c.Apart shared schedule alike i)
    (hl : (c.language i).Opaque (fun r => (i, r) ∈ (c.play shared schedule).requests) same alike)
    (hs : same [] (c.start i) (c.start i)) (hx : alike [] shared shared')
    {before after : List ι} (hb : schedule = before ++ after) :
    ((c.play shared before).scene i).Mimics same alike (c.solo shared' i (before.count i)) := by
  induction before using List.reverseRecOn generalizing after with
  | nil =>
    have hn (store : Store I V X) : (c.language i).node (c.program i) store =
        (.delay (.describe (c.start i)), store) := by
      simp only [Language.node, c.described i]
    refine ⟨?_, rfl, rfl, rfl⟩
    simp only [play, List.foldl_nil, first, State.scene, solo, List.count_nil, Scene.alone,
      Scene.play, List.replicate_zero, Scene.start, hn, Run.start]
    exact .fresh hs hx
  | append_singleton before j ih =>
    have hb' : schedule = before ++ j :: after := by rw [hb, List.append_assoc]; rfl
    have hm := ih hb'
    obtain ⟨slot, h⟩ := c.kept shared before
    -- What has happened by now is part of all that happens in the schedule.
    have hall {e : ι × Happening I V} (he : e ∈ (c.play shared (before ++ [j])).history) :
        e ∈ (c.play shared schedule).history :=
      (hb ▸ c.history_play (before ++ [j]) after : _ <+: (c.play shared schedule).history).mem he
    have htouched {j' : ι} {e : Happening I V} {r : Nat}
        (he : (j', e) ∈ (c.play shared (before ++ [j])).history) (hr : e.touched? = some r) :
        j' = i ↔ (i, r) ∈ (c.play shared schedule).requests :=
      ha.touched j' r (State.mem_tells.mpr ⟨e, hall he, hr⟩)
    have hshared (hj : j ≠ i) := ha.unshared before j after hb' hj
    rw [play_concat] at hall htouched hshared ⊢
    generalize c.play shared before = st at hm h hall htouched hshared ⊢
    by_cases hj : j = i
    · subst hj
      rw [st.scene_turn j, List.count_append, List.count_singleton_self, solo, Scene.alone_succ]
      refine hm.own hl (h.sound j) (c.sound_solo shared' j _) fun e he r hr => ?_
      rw [← st.scene_turn j] at he
      have he : (j, e) ∈ (st.turn j).history := State.mem_own.mp he
      obtain hr | rfl := hr
      · exact (htouched he hr).mp rfl
      · exact State.mem_requests.mpr (hall he)
    · obtain ⟨_, _, hleg⟩ := h.turn j
      have hu (k : Nat) (hk : slot i = some k) : st.store.Untouched k (st.turn j).store :=
        untouched_turn h hj hk fun r hr e he ht =>
          hj ((htouched (State.mem_turn_of_events he) ht).mpr (State.mem_requests.mpr (hall hr)))
      have hrecalls : st.store.Recalls (st.turn j).store :=
        (hleg.belonging h.coherent h.held).recalls
      have hcount : (before ++ [j]).count i = before.count i := by
        rw [List.count_append, List.count_singleton, beq_eq_false_iff_ne.mpr hj]
        rfl
      rw [hcount]
      obtain ⟨hstage, hstats, hhandler, hcalls⟩ := hm
      rw [State.scene, st.run_turn_of_ne j (Ne.symm hj), st.own_turn_of_ne j (Ne.symm hj)]
      exact ⟨hstage.others (h.described i) hrecalls hu (hshared hj), hstats, hhandler, hcalls⟩

end Cast

end Trampoline
