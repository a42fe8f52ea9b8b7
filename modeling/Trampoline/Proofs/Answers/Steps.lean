import Trampoline.Proofs.Answers.Watch
import Trampoline.Proofs.History.Turns

/-!
A run does no harm to a request that is watched: what it has in hand, and what it will force next,
follow from where it stands.
-/
namespace Trampoline

variable {I V X T P S H N : Type}

/-- What a run has in hand at a stage. -/
def Stage.hand : Stage I T N → Hand I
  | .reducing (.result _) => .ended
  | .reducing (.delay _) => .free
  | .reducing (.await issued _) => .awaiting issued
  | .dispatching issued _ _ => .calling issued
  | .ended _ => .ended

/-- The thunk that is forced next. -/
def Stage.next? : Stage I T N → Option N
  | .reducing (.result _) => none
  | .reducing (.delay next) => some next
  | .reducing (.await _ next) => some next
  | .dispatching _ next _ => some next
  | .ended _ => none

/-- A cell that belongs to no request. -/
def Store.Private (store : Store I V X) (c : Nat) : Prop :=
  c < store.cells.size ∧ ∀ {r : Nat} {o : Issued I × Nat}, store.origins[r]? = some o → o.1.cell ≠ c

/-- A thunk reads no cell of a request, and resumes only where there is a slot. -/
def Thunk.Sound (store : Store I V X) : Thunk V P S → Prop
  | .answer cell _ => store.Private cell
  | .resume slot _ => slot < store.slots.size
  | .build _ => True
  | .fail _ => True
  | .describe _ => True

/-- A request is watched, and the run will do it no harm. -/
structure Stage.Watched (r : Nat) (origin : Issued I × Nat) (history : List (Happening I V))
    (store : Store I V X) (stage : Stage I T (Thunk V P S)) : Prop where
  watch : Watch r origin history store stage.hand
  sound : ∀ thunk, stage.next? = some thunk → thunk.Sound store

namespace Stage.Watched

variable {r : Nat} {origin : Issued I × Nat} {history : List (Happening I V)} {store : Store I V X}
  {stage : Stage I T (Thunk V P S)} (l : Language I V X T P S)

/-- A run that is over has nothing left to force. -/
theorem halt (h : Watch r origin history store stage.hand) (hn : stage.next? = none) :
    Watched r origin history store stage :=
  ⟨h, fun _ ht => by rw [hn] at ht; cases ht⟩

theorem node (h : Watch r origin history store .free) (program : P) :
    Watched r origin history (l.node program store).2 (.reducing (l.node program store).1) := by
  unfold Language.node
  cases l.form program with
  | pure value => exact .halt h.close rfl
  | delay body => exact ⟨h, fun _ ht => by cases ht; trivial⟩
  | tryDelay body =>
    cases body with
    | ok body => exact ⟨h, fun _ ht => by cases ht; trivial⟩
    | error failure => exact ⟨h, fun _ ht => by cases ht; trivial⟩
  | fail failure => exact ⟨h, fun _ ht => by cases ht; trivial⟩
  | perform i next =>
    refine ⟨h.issue i, fun _ ht => ?_⟩
    cases ht
    refine ⟨store.cell_issue_lt i, fun {s o} ho => ?_⟩
    have ho' : store.origins[s]? = some o := ho
    rw [Store.origins, Array.getElem?_map, Option.map_eq_some_iff] at ho'
    obtain ⟨q, hq, rfl⟩ := ho'
    exact Nat.ne_of_lt (h.coherent.cell_lt hq)
  | describe start => exact ⟨h, fun _ ht => by cases ht; trivial⟩

theorem resumeAt (h : Watch r origin history store .free) {k : Nat} (hk : k < store.slots.size)
    (s : S) :
    Watched r origin (history ++ l.resumption k s store) (l.resumeAt k s store).2
      (.built (l.resumeAt k s store).1) := by
  have hr := h.run hk (l.resume s)
  have hz := store.size_slots_run k (l.resume s)
  unfold Language.resumption Language.resumeAt
  generalize (l.resume s).run k store = resumed at hr hz ⊢
  generalize (l.resume s).happenings k store = happenings at hr ⊢
  obtain ⟨progress, resumed⟩ := resumed
  rw [← List.append_assoc]
  have ended (suspended : Bool) (found : Option (Issued I)) :
      Watch r origin (history ++ happenings ++ [.collected k suspended found]) (resumed.collect k).2
        .ended :=
    hr.finish (hr.coherent.collect k) (Nat.le_of_eq (congrArg Array.size (resumed.cells_collect k)).symm)
      (resumed.origins_collect k) rfl
  cases progress with
  | finished value => exact .halt (ended false _) rfl
  | failed failure => exact .halt (ended false _) rfl
  | suspended rest =>
    cases hi : (resumed.collect k).1 with
    | some i =>
      simp only [hi]
      refine ⟨hr.collect hi, fun _ ht => ?_⟩
      cases ht
      exact Nat.lt_of_lt_of_eq hk (hz.symm.trans (resumed.size_slots_collect k).symm)
    | none =>
      simp only [hi]
      rw [List.append_cons]
      exact .halt ((ended true none).dropAll _) rfl

theorem force (h : Watch r origin history store .free) {thunk : Thunk V P S}
    (hs : thunk.Sound store) :
    Watched r origin (history ++ l.forcing thunk store) (l.force thunk store).2
      (.built (l.force thunk store).1) := by
  cases thunk with
  | build body =>
    rw [Language.forcing, List.append_nil]
    exact node l h body
  | fail failure =>
    rw [Language.forcing, List.append_nil]
    exact .halt h.close rfl
  | answer cell next =>
    rw [Language.forcing, List.append_nil, Language.force, Store.takeCell_eq]
    have hc : ∀ v, store.view r = some v → v.request.origin = origin → cell ≠ origin.1.cell := by
      intro v hv ho
      have hn := hs.2 (Store.origins_of_some (Store.request_of_view hv))
      rw [ho] at hn
      exact hn.symm
    have h' := h.putCell hc (store.cellAt cell).fetch.2
    cases (store.cellAt cell).fetch.1 with
    | error e => exact .halt h'.close rfl
    | ok value => exact node l h' (next value)
  | describe start =>
    rw [Language.forcing, List.append_cons]
    exact resumeAt l (h.newSlot store.slots.size) (by simp [Store.newSlot]) start
  | resume slot rest => exact resumeAt l h hs rest

end Stage.Watched

namespace Scene

variable [InstructionSet I] {r : Nat} {origin : Issued I × Nat} {history : List (Happening I V)}
  {store : Store I V X} {l : Language I V X T P S} {config : RunConfig} {handler : Handler I V H}
  {scene : Scene I V X T P S H}

/-- A request is watched in a scene. -/
def Watched (r : Nat) (origin : Issued I × Nat) (scene : Scene I V X T P S H) : Prop :=
  Stage.Watched r origin scene.history scene.store scene.run.stage

private theorem watched_settled {issued : Issued I} {next : Thunk V P S} {stats : RunStats}
    (h : Watch r origin history store (.calling issued)) (hs : next.Sound store)
    (reply : Except Failure V) (state : H) :
    (settled l history issued next stats store reply state).Watched r origin := by
  cases reply with
  | error failure =>
    rw [settled, List.append_cons]
    exact .halt ((h.refused failure).discard l next) rfl
  | ok value =>
    rw [settled]
    split
    · rename_i cell he
      dsimp only
      rw [List.append_cons]
      refine .force l (h.answered he) ?_
      cases next with
      | answer c _ => exact ⟨by simpa [Store.putCell] using hs.1, hs.2⟩
      | resume slot _ => exact hs
      | _ => trivial
    · rename_i e he
      rw [List.append_cons]
      exact .halt ((h.unfilled he).discard l next) rfl

private theorem watched_dispatching (hh : handler.SparesCells) {issued : Issued I}
    {next : Thunk V P S} {polls : Nat} {stats : RunStats} {state : H}
    (h : Watch r origin history store (.calling issued)) (hs : next.Sound store) :
    (turn l config handler ⟨history, ⟨.dispatching issued next polls, stats, state⟩, store⟩
      .own).Watched r origin := by
  rw [turn_dispatching hh]
  split
  · exact ⟨h, fun _ ht => by cases ht; exact hs⟩
  · exact watched_settled h hs _ _
  · exact watched_settled h hs _ _

/-- One turn of the run. -/
theorem Watched.own (hh : handler.SparesCells) (h : scene.Watched r origin) :
    (scene.turn l config handler .own).Watched r origin := by
  obtain ⟨history, ⟨stage, stats, state⟩, store⟩ := scene
  obtain ⟨h, hs⟩ := h
  cases stage with
  | ended outcome => rw [turn_ended]; exact .halt h rfl
  | dispatching issued next polls => exact watched_dispatching hh h (hs _ rfl)
  | reducing node =>
    cases node with
    | result value => rw [turn_result]; exact .halt h rfl
    | delay next =>
      cases he : config.exceeded? (stats.steps + 1) with
      | some limit =>
        rw [turn_exceeded he (.inl rfl)]
        exact .halt (h.discard l next) rfl
      | none =>
        rw [turn_delay he]
        exact .force l h (hs _ rfl)
    | await issued next =>
      cases he : config.exceeded? (stats.steps + 1) with
      | some limit =>
        rw [turn_exceeded he (.inr ⟨issued, rfl⟩)]
        exact .halt (h.discard l next) rfl
      | none =>
        rw [turn_await he]
        exact watched_dispatching hh h.called (hs _ rfl)

end Scene

end Trampoline
