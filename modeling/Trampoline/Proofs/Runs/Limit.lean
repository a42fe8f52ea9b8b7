import Trampoline.Proofs.Runs.Completion

/-!
Runs with a limit on their steps. Such a run does what it does without a limit, up to the first node that
the limit forbids; there it stops, and nothing is done any more but to throw away what would have come
next. A value at the end of a run is never forbidden.
-/
namespace Trampoline

variable {I V X T N P S H : Type}

theorem Run.stage_of_outcome? {run : Run I T N H} (h : run.outcome?.isSome) :
    ∃ outcome, run.stage = .ended outcome := by
  unfold outcome? at h
  split at h
  · exact ⟨_, ‹_›⟩
  · cases h
  · cases h

namespace Scene

/-- A run that gave up where another one stands: the node there was forbidden, so that what comes after
it was thrown away. -/
def GaveUp (l : Language I V X T P S) (limit : Nat) (scene stopped : Scene I V X T P S H) : Prop :=
  ∃ node next, scene.run.stage = .reducing node ∧
    (node = .delay next ∨ ∃ issued, node = .await issued next) ∧
    stopped = ⟨scene.history ++ l.discarding next scene.store,
      ⟨.ended (.error (.stepLimitExceeded limit)),
        { scene.run.stats with steps := scene.run.stats.steps + 1 }, scene.run.handler⟩,
      l.discard next scene.store⟩

theorem GaveUp.stage {l : Language I V X T P S} {limit : Nat} {scene stopped : Scene I V X T P S H}
    (h : scene.GaveUp l limit stopped) :
    stopped.run.stage = .ended (.error (.stepLimitExceeded limit)) := by
  obtain ⟨node, next, _, _, rfl⟩ := h
  rfl

variable [InstructionSet I] {l : Language I V X T P S} {config : RunConfig}
  {handler : Handler I V H} {scene first : Scene I V X T P S H} {limit : Nat}

/-- The limit makes no difference to a turn unless it forbids a node. -/
private theorem turn_limited (h : scene.Sound) {limit : Option Nat}
    (he : scene.reduces? (config.limited limit) = scene.reduces? (config.limited none)) :
    scene.turn l (config.limited limit) handler .own =
      scene.turn l (config.limited none) handler .own := by
  obtain ⟨history, ⟨stage, stats, state⟩, store⟩ := scene
  have hf : (config.limited none).exceeded? (stats.steps + 1) = none := rfl
  cases stage with
  | ended outcome => rw [turn_ended, turn_ended]
  | dispatching issued next polls => rw [turn_polled (h.hand_lt rfl), turn_polled (h.hand_lt rfl)]
  | reducing node =>
    cases node with
    | result value => rw [turn_result, turn_result]
    | delay next =>
      simp only [reduces?, hf] at he
      cases hx : (config.limited limit).exceeded? (stats.steps + 1) with
      | some _ => simp only [hx, reduceCtorEq] at he
      | none => rw [turn_delay hx, turn_delay hf]
    | await issued next =>
      simp only [reduces?, hf] at he
      cases hx : (config.limited limit).exceeded? (stats.steps + 1) with
      | some _ => simp only [hx, reduceCtorEq] at he
      | none =>
        have hb : issued.cell < store.cells.size := h.hand_lt rfl
        rw [turn_await hx, turn_await hf, turn_polled hb, turn_polled hb]

/-- As long as there were no more reductions than are granted, the limit makes no difference. -/
theorem alone_of_reductions_le (h : first.Sound) (ht : first.Tallied 0) {n : Nat}
    (hn : (first.reductions l (config.limited none) handler n).length ≤ limit) :
    first.alone l (config.limited (some limit)) handler n =
        first.alone l (config.limited none) handler n ∧
      first.reductions l (config.limited (some limit)) handler n =
        first.reductions l (config.limited none) handler n := by
  induction n with
  | zero => exact ⟨rfl, rfl⟩
  | succ n ih =>
    have hle := Nat.le_trans (reductions_mono first n 1).length_le hn
    obtain ⟨ha, hr⟩ := ih hle
    have htn : (first.alone l (config.limited none) handler n).Tallied _ := ht.alone h n
    rw [reductions, List.length_append] at hn
    have he : (first.alone l (config.limited none) handler n).reduces?
          (config.limited (some limit)) =
        (first.alone l (config.limited none) handler n).reduces? (config.limited none) := by
      generalize first.alone l (config.limited none) handler n = scene at htn hn
      obtain ⟨history, ⟨stage, stats, state⟩, store⟩ := scene
      -- Only a node that is reduced is counted, and only there the limit could strike.
      have granted (hs : stats.steps + 1 ≤ limit) :
          (config.limited (some limit)).exceeded? (stats.steps + 1) = none :=
        if_neg (Nat.not_lt.mpr hs)
      cases stage with
      | ended outcome => rfl
      | dispatching issued next polls => rfl
      | reducing node =>
        have hm : stats.steps = _ := htn
        cases node with
        | result value => rfl
        | delay next => simp only [reduces?]; rw [granted (hm ▸ hn)]; rfl
        | await issued next => simp only [reduces?]; rw [granted (hm ▸ hn)]; rfl
    constructor
    · rw [alone_succ, alone_succ, ha]
      exact turn_limited (h.alone n) he
    · rw [reductions, reductions, hr, ha, he]

/-- The first node beyond the limit is where the run gives up. -/
theorem gaveUp_of_lt_reductions (h : first.Sound) (ht : first.Tallied 0) {n : Nat}
    (hn : limit < (first.reductions l (config.limited none) handler n).length) :
    ∃ k < n, (first.reductions l (config.limited none) handler k).length = limit ∧
      GaveUp l limit (first.alone l (config.limited none) handler k)
        (first.alone l (config.limited (some limit)) handler (k + 1)) ∧
      first.reductions l (config.limited (some limit)) handler (k + 1) =
        first.reductions l (config.limited none) handler k := by
  induction n with
  | zero => cases hn
  | succ n ih =>
    by_cases hlt : limit < (first.reductions l (config.limited none) handler n).length
    · obtain ⟨k, hk, rest⟩ := ih hlt
      exact ⟨k, Nat.lt_succ_of_lt hk, rest⟩
    have hle := Nat.not_lt.mp hlt
    obtain ⟨ha, hr⟩ := alone_of_reductions_le h ht hle
    have htn : (first.alone l (config.limited none) handler n).Tallied _ := ht.alone h n
    rw [reductions, List.length_append] at hn
    refine ⟨n, Nat.lt_succ_self n, ?_⟩
    rw [alone_succ, reductions, ha, hr]
    generalize first.alone l (config.limited none) handler n = scene at htn hn ⊢
    generalize first.reductions l (config.limited none) handler n = reached at htn hn hle ⊢
    obtain ⟨history, ⟨stage, stats, state⟩, store⟩ := scene
    cases stage with
    | ended outcome => exact absurd hn (Nat.not_lt.mpr hle)
    | dispatching issued next polls => exact absurd hn (Nat.not_lt.mpr hle)
    | reducing node =>
      have hm : stats.steps = reached.length := htn
      have strikes (hs : limit < reached.length + 1) :
          (config.limited (some limit)).exceeded? (stats.steps + 1) = some limit :=
        if_pos (hm ▸ hs)
      cases node with
      | result value => exact absurd hn (Nat.not_lt.mpr hle)
      | delay next =>
        refine ⟨Nat.le_antisymm hle (Nat.le_of_lt_succ hn), ⟨_, next, rfl, .inl rfl, ?_⟩, ?_⟩
        · exact turn_exceeded (strikes hn) (.inl rfl)
        · simp only [reduces?, strikes hn]
          exact List.append_nil _
      | await issued next =>
        refine ⟨Nat.le_antisymm hle (Nat.le_of_lt_succ hn), ⟨_, next, rfl, .inr ⟨issued, rfl⟩, ?_⟩, ?_⟩
        · exact turn_exceeded (strikes hn) (.inr ⟨issued, rfl⟩)
        · simp only [reduces?, strikes hn]
          exact List.append_nil _

/-- For every number of turns: either no more nodes were reduced than are granted, and the limit made no
difference so far, or the run has given up at the first node beyond the limit. -/
theorem limited_cases (h : first.Sound) (ht : first.Tallied 0) (config : RunConfig) (limit m : Nat) :
    let free := config.limited none
    let bound := config.limited (some limit)
    ((first.reductions l free handler m).length ≤ limit ∧
      first.alone l bound handler m = first.alone l free handler m ∧
      first.reductions l bound handler m = first.reductions l free handler m) ∨
    ∃ k < m, (first.reductions l free handler k).length = limit ∧
      GaveUp l limit (first.alone l free handler k) (first.alone l bound handler m) ∧
      first.reductions l bound handler m = first.reductions l free handler k := by
  intro free bound
  by_cases hm : (first.reductions l free handler m).length ≤ limit
  · exact .inl ⟨hm, alone_of_reductions_le h ht hm⟩
  · obtain ⟨k, hk, hl, hg, hr⟩ := gaveUp_of_lt_reductions h ht (Nat.not_le.mp hm)
    obtain ⟨d, rfl⟩ := Nat.exists_eq_add_of_le hk
    have hs : (first.alone l bound handler (k + 1)).run.stage =
        .ended (.error (.stepLimitExceeded limit)) := hg.stage
    obtain ⟨ha, hr'⟩ := reductions_ended hs d
    exact .inr ⟨k, hk, hl, ha ▸ hg, hr'.trans hr⟩

/-- What a limit does to a run that begins in a scene. -/
structure LimitedTo (l : Language I V X T P S) (config : RunConfig) (handler : Handler I V H)
    (first : Scene I V X T P S H) (limit : Nat) : Prop where
  /-- A run that ends within the limit ends as it does without. -/
  within : ∀ n outcome,
    (first.alone l (config.limited none) handler n).run.stage = .ended outcome →
    (first.reductions l (config.limited none) handler n).length ≤ limit →
    first.alone l (config.limited (some limit)) handler n =
      first.alone l (config.limited none) handler n
  /-- A run that has more to do is stopped. -/
  beyond : ∀ n outcome,
    (first.alone l (config.limited none) handler n).run.stage = .ended outcome →
    limit < (first.reductions l (config.limited none) handler n).length →
    (first.alone l (config.limited (some limit)) handler n).run.stage =
      .ended (.error (.stepLimitExceeded limit))
  /-- So is a run that never ends. -/
  endless : (∀ n, (first.alone l (config.limited none) handler n).run.outcome? = none) →
    ∃ n, (first.alone l (config.limited (some limit)) handler n).run.stage =
      .ended (.error (.stepLimitExceeded limit))
  /-- A run is stopped where it stands after the first reductions, as many as are granted. The handler
  was called for the instructions among them, and nothing was done any more. -/
  stopped : ∀ n,
    (first.alone l (config.limited (some limit)) handler n).run.stage =
      .ended (.error (.stepLimitExceeded limit)) →
    ∃ k, (first.reductions l (config.limited none) handler k).length = limit ∧
      first.reductions l (config.limited (some limit)) handler n =
        first.reductions l (config.limited none) handler k ∧
      (first.alone l (config.limited (some limit)) handler n).calls =
        (first.reductions l (config.limited none) handler k).filterMap Node.call? ∧
      GaveUp l limit (first.alone l (config.limited none) handler k)
        (first.alone l (config.limited (some limit)) handler n)
  at_most : ∀ n, (first.reductions l (config.limited (some limit)) handler n).length ≤ limit
  ends : ∃ n, (first.alone l (config.limited (some limit)) handler n).run.outcome?.isSome
  /-- The value at the end is one step more, which is never charged. -/
  uncharged : ∀ n value,
    (first.alone l (config.limited (some limit)) handler n).run.stage = .ended (.ok value) →
    (first.alone l (config.limited (some limit)) handler n).run.stats.steps =
      (first.reductions l (config.limited (some limit)) handler n).length + 1
  larger : ∀ n value more, limit ≤ more →
    (first.alone l (config.limited (some limit)) handler n).run.stage = .ended (.ok value) →
    first.alone l (config.limited (some more)) handler n =
      first.alone l (config.limited (some limit)) handler n

private theorem endless_of_completes (hh : handler.Completes) (h : first.Sound) (ht : first.Tallied 0)
    (hs : first.run.stage.isCalling = false)
    (he : ∀ n, (first.alone l (config.limited none) handler n).run.outcome? = none) (limit : Nat) :
    ∃ n, (first.alone l (config.limited (some limit)) handler n).run.stage =
      .ended (.error (.stepLimitExceeded limit)) := by
  obtain ⟨n, hn, _⟩ := exists_le_reductions hh h hs he (limit + 1)
  obtain ⟨hle, _⟩ | ⟨k, _, _, hg, _⟩ := limited_cases h ht config limit n
  · exact absurd hn (Nat.not_le.mpr (Nat.lt_succ_of_le hle))
  · exact ⟨n, hg.stage⟩

private theorem ends_of_completes (hh : handler.Completes) (h : first.Sound) (ht : first.Tallied 0)
    (hs : first.run.stage.isCalling = false) (config : RunConfig) (limit : Nat) :
    ∃ n, (first.alone l (config.limited (some limit)) handler n).run.outcome?.isSome := by
  by_cases he : ∀ n, (first.alone l (config.limited none) handler n).run.outcome? = none
  · obtain ⟨n, hn⟩ := endless_of_completes hh h ht hs he limit
    exact ⟨n, by rw [Run.outcome?, hn]; rfl⟩
  · obtain ⟨n, hn⟩ := Classical.not_forall.mp he
    refine ⟨n, ?_⟩
    obtain ⟨_, ha, _⟩ | ⟨k, _, _, hg, _⟩ := limited_cases (l := l) h ht config limit n
    · rw [ha]
      exact Option.isSome_iff_ne_none.mpr hn
    · rw [Run.outcome?, hg.stage]
      rfl

private theorem limited_of_completes (hh : handler.Completes) (h : first.Sound) (ht : first.Tallied 0)
    (hs : first.run.stage.isCalling = false) (hc : first.calls = []) (config : RunConfig)
    (limit : Nat) : first.LimitedTo l config handler limit where
  within n outcome _ hn := (alone_of_reductions_le h ht hn).1
  beyond n outcome _ hn := by
    obtain ⟨hle, _⟩ | ⟨k, _, _, hg, _⟩ := limited_cases h ht config limit n
    · exact absurd hn (Nat.not_lt.mpr hle)
    · exact hg.stage
  endless he := endless_of_completes hh h ht hs he limit
  stopped n hn := by
    obtain ⟨_, ha, _⟩ | ⟨k, _, hl, hg, hr⟩ := limited_cases h ht config limit n
    · -- Without a limit no run is stopped by one.
      have htn : (first.alone l (config.limited none) handler n).Tallied _ := ht.alone h n
      rw [Tallied, ← ha, hn] at htn
      exact htn.elim
    · have hcalls : (first.alone l (config.limited (some limit)) handler n).calls = first.calls ++
          (first.reductions l (config.limited (some limit)) handler n).filterMap Node.call? :=
        calls_alone first n
      rw [hc, List.nil_append, hr] at hcalls
      exact ⟨k, hl, hr, hcalls, hg⟩
  at_most n := by
    obtain ⟨hle, _, hr⟩ | ⟨k, _, hl, _, hr⟩ := limited_cases h ht config limit n
    · rw [hr]
      exact hle
    · rw [hr]
      exact Nat.le_of_eq hl
  ends := ends_of_completes hh h ht hs config limit
  uncharged n value hv := by
    obtain ⟨_, ha, hr⟩ | ⟨k, _, _, hg, _⟩ := limited_cases h ht config limit n
    · have htn : (first.alone l (config.limited none) handler n).Tallied _ := ht.alone h n
      rw [Tallied, ← ha, hv] at htn
      rw [hr]
      exact htn
    · rw [hg.stage] at hv
      cases hv
  larger n value more hm hv := by
    obtain ⟨hle, ha, _⟩ | ⟨k, _, _, hg, _⟩ := limited_cases h ht config limit n
    · rw [ha]
      exact (alone_of_reductions_le h ht (Nat.le_trans hle hm)).1
    · rw [hg.stage] at hv
      cases hv

/-- A limit cuts the run of any program exactly, and nowhere else, if every call of the handler comes to
an end. The store may be any that came about before. -/
theorem run_limitedTo (l : Language I V X T P S) (config : RunConfig) (hh : handler.Completes)
    (program : P) (state : H) (shared : X) (before : List (Deed I V X)) (limit : Nat) :
    (start l program state (before.foldl Deed.apply (Store.fresh shared))).LimitedTo l config handler
      limit := by
  have hc : (before.foldl Deed.apply (Store.fresh shared)).Coherent :=
    (Store.Coherent.fresh shared).deeds before
  exact limited_of_completes hh (sound_start l hc program state) rfl rfl rfl config limit

open Booking in
/-- A booking that would be accepted with its third instruction is stopped if only two are granted. -/
theorem booking_limitedTo :
    let first : Scene Instruction Answer Unit _ _ _ House := start Sequential.language
      (.direct (tryAccept demo.capacity demo.request)) demo.house (Store.fresh ())
    House.handler.Completes ∧ first.LimitedTo Sequential.language .default House.handler 2 ∧
      (first.alone Sequential.language (RunConfig.default.limited (some 2)) House.handler 4).run.stage =
        .ended (.error (.stepLimitExceeded 2)) := by
  intro first
  have h : first.LimitedTo Sequential.language .default House.handler 2 :=
    run_limitedTo Sequential.language .default House.completes
      (.direct (tryAccept demo.capacity demo.request)) demo.house () [] 2
  have he : (first.alone Sequential.language (RunConfig.default.limited none) House.handler
      4).run.outcome?.isSome := by
    decide +kernel
  obtain ⟨outcome, he⟩ := Run.stage_of_outcome? he
  have hn : 2 < (first.reductions Sequential.language (RunConfig.default.limited none) House.handler
      4).length := by
    decide +kernel
  exact ⟨House.completes, h, h.beyond 4 _ he hn⟩

end Scene

end Trampoline
