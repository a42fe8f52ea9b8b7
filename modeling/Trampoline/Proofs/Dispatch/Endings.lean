import Trampoline.Proofs.Dispatch.Passage
import Trampoline.Proofs.History.Actions
import Trampoline.Proofs.Runs.Strides

/-!
What follows the end of a resumption. Once a description has returned the run is over for good; once it
is suspended with an instruction the handler is called for that, unless the limit forbids it or nobody
takes the run any further.
-/
namespace Trampoline

variable {I V X T P S H : Type}

open Happening (split_append split_concat)

section Stride

variable {store store' : Store I V X} {hand hand' : Hand I} {events : List (Happening I V)}

/-- A run that is over only throws away what it has. -/
theorem Stride.of_ended (h : Stride .ended store events hand' store') :
    hand' = .ended ∧ ∀ e ∈ events, e.isAction = true := by
  cases h with
  | act k action _ => exact ⟨rfl, fun _ => Store.isAction_of_mem_acting⟩

/-- A stride that collects does nothing else, and takes in hand what it has found. -/
theorem Stride.of_collected {before after : List (Happening I V)} {k : Nat} {suspended : Bool}
    {found : Option (Issued I)}
    (h : Stride hand store (before ++ .collected k suspended found :: after) hand' store') :
    after = [] ∧ hand' = .resumed suspended found := by
  generalize he : before ++ .collected k suspended found :: after = events at h
  cases h with
  | act j action _ =>
    have := Store.isAction_of_mem_acting (he ▸ List.mem_append_right before List.mem_cons_self)
    cases this
  | collect j suspended =>
    rcases before with _ | ⟨_, before⟩
    · cases he
      exact ⟨rfl, rfl⟩
    · simp at he
  | _ => rcases before with _ | ⟨_, before⟩ <;> simp at he

end Stride

/-- Whatever happens after a description has returned is done by others, or to requests that are
thrown away. -/
def Concluded (history : List (Happening I V)) (hand : Hand I) : Prop :=
  ∀ before after k found, history = before ++ .collected k false found :: after →
    hand = .ended ∧ ∀ e ∈ after, e.isAction = true

namespace Concluded

variable {history events : List (Happening I V)} {hand : Hand I}

theorem start (hand : Hand I) : Concluded ([] : List (Happening I V)) hand := by
  intro before after k found h
  simp at h

theorem steady :
    Steady (V := V) (X := X) (fun _ => True) fun history _ (hand : Hand I) =>
      Concluded history hand where
  stop h before after k found hb := ⟨rfl, (h before after k found hb).2⟩
  stride h hs before after k found hb := by
    obtain ⟨rest, hr, rfl⟩ | ⟨earlier, rfl, rfl⟩ := split_append hb
    · obtain ⟨rfl, ha⟩ := h before rest k found hr
      obtain ⟨rfl, hm⟩ := hs.of_ended
      exact ⟨rfl, fun e he => (List.mem_append.mp he).elim (ha e) (hm e)⟩
    · obtain ⟨rfl, rfl⟩ := hs.of_collected
      exact ⟨rfl, nofun⟩
  deed deed _ h before after k found hb := by
    obtain ⟨rest, hr, rfl⟩ | ⟨earlier, _, he⟩ := split_append hb
    · obtain ⟨hh, ha⟩ := h before rest k found hr
      exact ⟨hh, fun e he => (List.mem_append.mp he).elim (ha e) Deed.isAction_of_mem_happenings⟩
    · have := Deed.isAction_of_mem_happenings (he ▸ List.mem_append_right earlier List.mem_cons_self)
      cases this

end Concluded

/-! ### Instructions that are due -/

/-- The handler was called for an instruction, or is called for it next. -/
def Due (i : Issued I) (after : List (Happening I V)) (hand : Hand I) : Prop :=
  .called i ∈ after ∨ hand = .awaiting i

namespace Due

variable {i : Issued I} {after events : List (Happening I V)} {hand hand' : Hand I}
  {store store' : Store I V X}

theorem strides (h : Due i after hand) (hs : Strides hand store events hand' store') :
    Due i (after ++ events) hand' := by
  induction hs with
  | refl => rwa [List.append_nil]
  | tail _ stride ih =>
    obtain hc | rfl := ih
    · exact .inl (List.append_assoc .. ▸ List.mem_append_left _ hc)
    · cases stride with
      | act k action _ => exact .inr rfl
      | called => exact .inl (by simp)

/-- What is collected in a suspension is due at once. -/
theorem of_collected (hs : Strides hand store events hand' store')
    {before : List (Happening I V)} {k : Nat}
    (he : events = before ++ .collected k true (some i) :: after) : Due i after hand' := by
  induction hs generalizing after with
  | refl => simp at he
  | tail _ stride ih =>
    obtain ⟨rest, hb, rfl⟩ | ⟨earlier, rfl, rfl⟩ := split_append he
    · exact (ih hb).strides (.single stride)
    · exact .inr stride.of_collected.2

end Due

namespace Scene

variable [InstructionSet I] {l : Language I V X T P S} {config : RunConfig}
  {handler : Handler I V H} {scene : Scene I V X T P S H}

/-- The run has given up because of its limit. -/
def OutOfSteps (config : RunConfig) (scene : Scene I V X T P S H) : Prop :=
  ∃ limit, config.stepLimit = some limit ∧
    scene.run.outcome? = some (.error (.stepLimitExceeded limit))

/-- Whatever was collected in a suspension is due, unless the run is out of steps. -/
def Owes (config : RunConfig) (scene : Scene I V X T P S H) : Prop :=
  ∀ before after k i, scene.history = before ++ .collected k true (some i) :: after →
    Due i after scene.run.stage.hand ∨ scene.OutOfSteps config

/-- A run that is out of steps stays so. -/
theorem OutOfSteps.own (h : scene.OutOfSteps config) :
    scene.turn l config handler .own = scene := by
  obtain ⟨history, ⟨stage, stats, state⟩, store⟩ := scene
  obtain ⟨limit, _, ho⟩ := h
  cases stage with
  | ended outcome => exact turn_ended outcome
  | reducing node => cases ho
  | dispatching issued next polls => cases ho

theorem Owes.turn (hs : scene.Sound) (h : scene.Owes config) (turn : Turn I V X) :
    (scene.turn l config handler turn).Owes config := by
  intro before after k i hb
  cases turn with
  | other deed =>
    obtain ⟨rest, hr, rfl⟩ | ⟨earlier, _, he⟩ := split_append hb
    · exact (h before rest k i hr).imp (.imp (List.mem_append_left _) id) id
    · have := Deed.isAction_of_mem_happenings (he ▸ List.mem_append_right earlier List.mem_cons_self)
      cases this
  | own =>
    generalize hn : scene.turn l config handler .own = next at hb ⊢
    obtain ⟨events, hh, hl⟩ | ⟨limit, hl, ho, _⟩ := hn ▸ hs.led
    · rw [hh] at hb
      obtain ⟨rest, hr, rfl⟩ | ⟨earlier, _, he⟩ := split_append hb
      · obtain hd | ho := h before rest k i hr
        · exact .inl (hd.strides hl)
        · rw [ho.own] at hn
          exact .inr (hn ▸ ho)
      · exact .inl (.of_collected hl he)
    · exact .inr ⟨limit, hl, ho⟩

omit [InstructionSet I] in
/-- Before a program begins, nothing is due. -/
theorem owes_start (l : Language I V X T P S) (config : RunConfig) (program : P) (state : H)
    (store : Store I V X) : (start l program state store).Owes config := by
  intro before after k i h
  simp [start] at h

theorem Owes.play (hs : scene.Sound) (h : scene.Owes config) (turns : List (Turn I V X)) :
    (scene.play l config handler turns).Owes config := by
  induction turns generalizing scene with
  | nil => exact h
  | cons turn turns ih => exact ih (hs.turn turn) (h.turn hs turn)

/-- What was collected in a suspension is dispatched by the next turn at the latest, unless the run is
out of steps. -/
theorem Owes.called (hs : scene.Sound) (h : scene.Owes config)
    {before after : List (Happening I V)} {k : Nat} {i : Issued I}
    (hb : scene.history = before ++ .collected k true (some i) :: after) :
    .called i ∈ (scene.turn l config handler .own).history ∨
      (scene.turn l config handler .own).OutOfSteps config := by
  generalize hn : scene.turn l config handler .own = next
  obtain (hc | ha) | ho := h before after k i hb
  · refine .inl ?_
    have hh : next.history = scene.history ++ l.stepping config handler scene.run scene.store := by
      rw [← hn]
      rfl
    rw [hh, hb]
    simp [hc]
  · obtain ⟨events, hh, _⟩ | ⟨limit, hl, ho, _⟩ := hn ▸ hs.led_awaiting ha
    · refine .inl ?_
      rw [hh]
      simp
    · exact .inr ⟨limit, hl, ho⟩
  · rw [ho.own] at hn
    exact .inr (hn ▸ ho)

end Scene

end Trampoline
