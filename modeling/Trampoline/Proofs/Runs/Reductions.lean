import Trampoline.Proofs.Runs.Dealings

/-!
The reductions of a run: the steps of its program and the instructions that it hands to the handler, but
not the value at its end. They tell the calls of the handler, and without a limit they are counted by the
steps.
-/
namespace Trampoline

variable {I V X T P S H : Type}

def RunConfig.limited (config : RunConfig) (limit : Option Nat) : RunConfig :=
  { config with stepLimit := limit }

/-- The instruction that the handler is called for when a node is reduced. -/
def Node.call? {N : Type} (node : Node I T N) : Option I :=
  node.pending?.map Issued.instruction

namespace Scene

/-- The node that the next turn of a run reduces. A value is not reduced, and a node that the limit
forbids is not reduced either. -/
def reduces? (config : RunConfig) (scene : Scene I V X T P S H) :
    Option (Node I T (Thunk V P S)) :=
  match scene.run.stage, config.exceeded? (scene.run.stats.steps + 1) with
  | .reducing (.delay next), none => some (.delay next)
  | .reducing (.await issued next), none => some (.await issued next)
  | _, _ => none

/-- The steps of a run without limit are its reductions so far, and one more for a value. -/
def Tallied (reductions : Nat) (scene : Scene I V X T P S H) : Prop :=
  match scene.run.stage with
  | .ended (.ok _) => scene.run.stats.steps = reductions + 1
  | .ended (.error (.stepLimitExceeded _)) => False
  | _ => scene.run.stats.steps = reductions

variable [InstructionSet I]

/-- The nodes that are reduced in so many turns of the run alone. -/
def reductions (l : Language I V X T P S) (config : RunConfig) (handler : Handler I V H)
    (scene : Scene I V X T P S H) : Nat → List (Node I T (Thunk V P S))
  | 0 => []
  | n + 1 =>
    scene.reductions l config handler n ++
      ((scene.alone l config handler n).reduces? config).toList

variable {l : Language I V X T P S} {config : RunConfig} {handler : Handler I V H}
  {history : List (Happening I V)} {stats : RunStats} {state : H} {store : Store I V X}
  {scene first : Scene I V X T P S H}

theorem alone_succ (scene : Scene I V X T P S H) (n : Nat) :
    scene.alone l config handler (n + 1) =
      (scene.alone l config handler n).turn l config handler .own :=
  alone_add scene n 1

/-! ### A single turn -/

/-- A turn makes no other calls than that of the node it reduces. -/
theorem calls_turn (scene : Scene I V X T P S H) :
    (scene.turn l config handler .own).calls =
      scene.calls ++ (scene.reduces? config).toList.filterMap Node.call? := by
  have hs : (scene.turn l config handler .own).calls = scene.calls ++
      (l.stepping config handler scene.run scene.store).filterMap Happening.call? :=
    List.filterMap_append
  rw [hs]
  congr 1
  obtain ⟨history, ⟨stage, stats, state⟩, store⟩ := scene
  cases stage with
  | ended outcome => rfl
  | dispatching issued next polls => exact l.calls_dispatching handler issued next polls state store
  | reducing node =>
    cases node with
    | result value => rfl
    | delay next =>
      simp only [Language.stepping, reduces?]
      cases config.exceeded? (stats.steps + 1) with
      | some limit => exact l.calls_discarding next store
      | none => exact l.calls_forcing next store
    | await issued next =>
      simp only [Language.stepping, reduces?]
      cases config.exceeded? (stats.steps + 1) with
      | some limit => exact l.calls_discarding next store
      | none =>
        have hd := l.calls_dispatching handler issued next 0 state store
        simp only [List.filterMap_cons, Happening.call?, hd]
        rfl

omit [InstructionSet I] in
/-- What comes of a forced thunk is neither a value nor a limit that strikes. -/
private theorem tallied_built (built : Except BuildError (Node I T (Thunk V P S)) × Store I V X)
    (m : Nat) (hm : stats.steps = m) :
    Tallied m (⟨history, ⟨.built built.1, stats, state⟩, built.2⟩ : Scene I V X T P S H) := by
  obtain ⟨_ | _, _⟩ := built <;> exact hm

private theorem tallied_settled (issued : Issued I) (next : Thunk V P S)
    (reply : Except Failure V) {m : Nat} (hm : stats.steps = m) :
    (settled l history issued next stats store reply state).Tallied m := by
  cases reply with
  | error failure => exact hm
  | ok value =>
    rw [settled]
    split
    · exact tallied_built (l.force next _) m hm
    · exact hm

private theorem tallied_polled {issued : Issued I} (hb : issued.cell < store.cells.size)
    (next : Thunk V P S) (polls : Nat) {m : Nat} (hm : stats.steps = m) :
    (turn l config handler ⟨history, ⟨.dispatching issued next polls, stats, state⟩, store⟩
      .own).Tallied m := by
  rw [turn_polled hb]
  split
  · exact hm
  · exact tallied_settled issued next _ hm
  · exact tallied_settled issued next _ hm

private theorem Tallied.turn (h : scene.Sound) {m : Nat} (ht : scene.Tallied m) :
    (scene.turn l (config.limited none) handler .own).Tallied
      (m + (scene.reduces? (config.limited none)).toList.length) := by
  obtain ⟨history, ⟨stage, stats, state⟩, store⟩ := scene
  cases stage with
  | ended outcome => rwa [turn_ended]
  | dispatching issued next polls => exact tallied_polled (h.hand_lt rfl) next polls ht
  | reducing node =>
    have hm : stats.steps = m := ht
    cases node with
    | result value =>
      rw [turn_result]
      exact congrArg (· + 1) hm
    | delay next =>
      rw [turn_delay rfl]
      exact tallied_built (l.force next store) (m + 1) (congrArg (· + 1) hm)
    | await issued next =>
      rw [turn_await rfl]
      exact tallied_polled (h.hand_lt rfl) next 0 (congrArg (· + 1) hm)

/-! ### A whole run -/

theorem calls_alone (first : Scene I V X T P S H) (n : Nat) :
    (first.alone l config handler n).calls =
      first.calls ++ (first.reductions l config handler n).filterMap Node.call? := by
  induction n with
  | zero => exact (List.append_nil _).symm
  | succ n ih => rw [alone_succ, calls_turn, ih, reductions, List.filterMap_append, List.append_assoc]

theorem Tallied.alone (h : first.Sound) (ht : first.Tallied 0) (n : Nat) :
    (first.alone l (config.limited none) handler n).Tallied
      (first.reductions l (config.limited none) handler n).length := by
  induction n with
  | zero => exact ht
  | succ n ih =>
    rw [alone_succ, reductions, List.length_append]
    exact ih.turn (h.alone n)

theorem reductions_mono (first : Scene I V X T P S H) (m n : Nat) :
    first.reductions l config handler m <+: first.reductions l config handler (m + n) := by
  induction n with
  | zero => exact List.prefix_rfl
  | succ n ih => exact ih.trans (List.prefix_append _ _)

/-- A run that is over reduces nothing any more. -/
theorem reductions_ended {outcome : Except RunError T} {m : Nat}
    (he : (first.alone l config handler m).run.stage = .ended outcome) (n : Nat) :
    first.alone l config handler (m + n) = first.alone l config handler m ∧
      first.reductions l config handler (m + n) = first.reductions l config handler m := by
  induction n with
  | zero => exact ⟨rfl, rfl⟩
  | succ n ih =>
    obtain ⟨ha, hr⟩ := ih
    have hs : (first.alone l config handler (m + n)).run.stage = .ended outcome := ha ▸ he
    constructor
    · rw [← Nat.add_assoc, alone_succ, ha]
      generalize first.alone l config handler m = scene at he
      obtain ⟨history, ⟨stage, stats, state⟩, store⟩ := scene
      cases he
      exact turn_ended outcome
    · have hn : (first.alone l config handler (m + n)).reduces? config = none := by
        rw [reduces?, hs]
      rw [← Nat.add_assoc, reductions, hn, hr]
      exact List.append_nil _

end Scene

end Trampoline
