import Mathlib.Data.List.Induction
import Mathlib.Logic.Function.Basic
import Trampoline.Proofs.History.Actions

/-!
Programs that run side by side. Each is written as a description and has an executor, settings and a handler
of its own; their runs take turns in any order. They all work on one store, so that a request of one
description may be polled and dropped by every other, at any time.
-/
namespace Trampoline

/-- Programs that are descriptions, with what each of them is run by. -/
structure Cast (ι I V X : Type) where
  T : ι → Type
  P : ι → Type
  S : ι → Type
  H : ι → Type
  language : ∀ i, Language I V X (T i) (P i) (S i)
  config : ι → RunConfig
  handler : ∀ i, Handler I V (H i)
  program : ∀ i, P i
  start : ∀ i, S i
  described : ∀ i, (language i).form (program i) = .describe (start i)
  /-- What the handlers begin with. -/
  state : ∀ i, H i

namespace Cast

variable {ι I V X β : Type}

/-- All runs with the store they share, and what has happened so far in whose turn. -/
structure State (c : Cast ι I V X) where
  history : List (ι × Happening I V)
  run : ∀ i, Run I (c.T i) (Thunk V (c.P i) (c.S i)) (c.H i)
  store : Store I V X

/-- None of the programs has begun. -/
def first (c : Cast ι I V X) (shared : X) : c.State where
  history := []
  run i := .start ((c.language i).node (c.program i) (Store.fresh shared)).1 (c.state i)
  store := .fresh shared

variable {c : Cast ι I V X}

/-- What has happened, as far as it is of a certain kind, and who has done it. -/
def State.tells (st : c.State) (kind : Happening I V → Option β) : List (ι × β) :=
  st.history.filterMap fun e => (kind e.2).map (e.1, ·)

theorem State.mem_tells {st : c.State} {kind : Happening I V → Option β} {i : ι} {b : β} :
    (i, b) ∈ st.tells kind ↔ ∃ e, (i, e) ∈ st.history ∧ kind e = some b := by
  simp only [tells, List.mem_filterMap, Option.map_eq_some_iff, Prod.mk.injEq, Prod.exists]
  constructor
  · rintro ⟨_, e, he, _, hb, rfl, rfl⟩
    exact ⟨e, he, hb⟩
  · rintro ⟨e, he, hb⟩
    exact ⟨i, e, he, b, hb, rfl, rfl⟩

variable [DecidableEq ι]

namespace State

/-- What has happened in the turns of one run. -/
def own (st : c.State) (i : ι) : List (Happening I V) :=
  st.history.filterMap fun e => if e.1 = i then some e.2 else none

theorem mem_own {st : c.State} {i : ι} {e : Happening I V} :
    e ∈ st.own i ↔ (i, e) ∈ st.history := by
  simp only [own, List.mem_filterMap, Option.ite_none_right_eq_some, Option.some.injEq, Prod.exists]
  constructor
  · rintro ⟨_, _, he, rfl, rfl⟩
    exact he
  · exact fun he => ⟨i, e, he, rfl, rfl⟩

/-- What has happened in the turns of one run, and what was done in the turns of all others. -/
def heard (st : c.State) (i : ι) : List (Happening I V) :=
  st.history.filterMap fun e => if e.1 = i ∨ e.2.isAction then some e.2 else none

/-- One run, which takes everything that is done by others for what it is. -/
def part (st : c.State) (i : ι) : Scene I V X (c.T i) (c.P i) (c.S i) (c.H i) :=
  ⟨st.heard i, st.run i, st.store⟩

/-- One run, as far as it is its own doing. -/
def scene (st : c.State) (i : ι) : Scene I V X (c.T i) (c.P i) (c.S i) (c.H i) :=
  ⟨st.own i, st.run i, st.store⟩

variable [InstructionSet I]

/-- One turn of one of the runs. -/
def turn (st : c.State) (i : ι) : c.State :=
  let scene := Scene.turn (c.language i) (c.config i) (c.handler i) ⟨[], st.run i, st.store⟩ .own
  ⟨st.history ++ scene.history.map (i, ·), Function.update st.run i scene.run, scene.store⟩

end State

/-- Turns of the runs in a given order. -/
def play [InstructionSet I] (c : Cast ι I V X) (shared : X) (schedule : List ι) : c.State :=
  schedule.foldl State.turn (c.first shared)

/-! ### A single turn -/

section Turns

variable [InstructionSet I] {shared : X}

theorem play_concat (schedule : List ι) (i : ι) :
    c.play shared (schedule ++ [i]) = (c.play shared schedule).turn i := by
  rw [play, List.foldl_append]
  rfl

namespace State

variable (st : c.State) (i : ι)

/-- What happens in the next turn of a run. -/
def events : List (Happening I V) :=
  (c.language i).stepping (c.config i) (c.handler i) (st.run i) st.store

theorem history_turn : (st.turn i).history = st.history ++ (st.events i).map (i, ·) :=
  rfl

variable {st} in
theorem mem_turn {e : ι × Happening I V} (he : e ∈ st.history) : e ∈ (st.turn i).history :=
  List.mem_append_left _ he

variable {st i} in
theorem mem_turn_of_events {e : Happening I V} (he : e ∈ st.events i) : (i, e) ∈ (st.turn i).history :=
  List.mem_append_right _ (List.mem_map_of_mem he)

theorem run_turn_of_ne {j : ι} (hj : j ≠ i) : (st.turn i).run j = st.run j :=
  Function.update_of_ne hj _ _

theorem own_turn_self : (st.turn i).own i = st.own i ++ st.events i := by
  rw [own, history_turn, List.filterMap_append, List.filterMap_map]
  have hs : (fun e : ι × Happening I V => if e.1 = i then some e.2 else none) ∘ (i, ·) = some :=
    funext fun _ => if_pos rfl
  rw [hs, List.filterMap_some]
  rfl

theorem own_turn_of_ne {j : ι} (hj : j ≠ i) : (st.turn i).own j = st.own j := by
  have hn : ((st.events i).map (i, ·)).filterMap (fun e => if e.1 = j then some e.2 else none) = [] := by
    rw [List.filterMap_map]
    exact List.filterMap_eq_nil_iff.mpr fun e _ => if_neg (Ne.symm hj)
  rw [own, history_turn, List.filterMap_append, hn, List.append_nil]
  rfl

theorem heard_turn_self : (st.turn i).heard i = st.heard i ++ st.events i := by
  rw [heard, history_turn, List.filterMap_append, List.filterMap_map]
  have hs : (fun e : ι × Happening I V => if e.1 = i ∨ e.2.isAction then some e.2 else none) ∘ (i, ·) =
      some := funext fun _ => if_pos (.inl rfl)
  rw [hs, List.filterMap_some]
  rfl

theorem heard_turn_of_ne {j : ι} (hj : j ≠ i) :
    (st.turn i).heard j = st.heard j ++ (st.events i).filter Happening.isAction := by
  rw [heard, history_turn, List.filterMap_append, List.filterMap_map]
  congr 1
  rw [← List.filterMap_eq_filter]
  congr 1
  funext e
  simp [Ne.symm hj, Option.guard]

/-- A turn of a run is a turn by itself. -/
theorem scene_turn : (st.turn i).scene i =
    (st.scene i).turn (c.language i) (c.config i) (c.handler i) .own := by
  rw [scene, own_turn_self]
  exact congrArg (Scene.mk _ · _) (Function.update_self i _ _)

theorem part_turn : (st.turn i).part i =
    (st.part i).turn (c.language i) (c.config i) (c.handler i) .own := by
  rw [part, heard_turn_self]
  exact congrArg (Scene.mk _ · _) (Function.update_self i _ _)

end State

/-- What has happened stays so. -/
theorem history_play (schedule more : List ι) :
    (c.play shared schedule).history <+: (c.play shared (schedule ++ more)).history := by
  induction more using List.reverseRecOn with
  | nil => exact (List.append_nil schedule).symm ▸ List.prefix_rfl
  | append_singleton more i ih =>
    rw [← List.append_assoc, play_concat, State.history_turn]
    exact ih.trans (List.prefix_append _ _)

end Turns

end Cast

end Trampoline
