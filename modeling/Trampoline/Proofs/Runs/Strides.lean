import Trampoline.Proofs.Runs.Sound

/-!
A turn of a run, taken apart. Whatever a run does, it does in strides: it carries out one action of a
description, opens a slot or collects from one, calls its handler, or goes on from an answer. What every
stride preserves holds all along the run.
-/
namespace Trampoline

variable {I V X α T P S H : Type}

/-- What a run has in hand once a resumption is over. -/
def Hand.resumed (suspended : Bool) (found : Option (Issued I)) : Hand I :=
  match suspended, found with
  | true, some i => .awaiting i
  | true, none => .ended
  | false, _ => .ended

/-- One stride: what the run has in hand, the store, and what happens. -/
inductive Stride : Hand I → Store I V X → List (Happening I V) → Hand I → Store I V X → Prop
  | act {hand : Hand I} {store : Store I V X} (k : Nat) (action : Action I X) :
      k < store.slots.size → Stride hand store (store.acting action) hand (store.act k action).2
  | opened {store : Store I V X} : Stride .free store [.opened store.slots.size] .free store.newSlot.2
  | collect {store : Store I V X} (k : Nat) (suspended : Bool) :
      Stride .free store [.collected k suspended (store.collect k).1]
        (.resumed suspended (store.collect k).1) (store.collect k).2
  | issue {store : Store I V X} (i : I) :
      Stride .free store [] (.awaiting (store.issue i).1) (store.issue i).2
  /-- The answer to an instruction that no request is for is taken out of its cell. -/
  | read {store : Store I V X} {c : Nat} (cell : Cell V) : store.Private c →
      Stride .free store [] .free (store.putCell c cell)
  | called {store : Store I V X} (i : Issued I) :
      Stride (.awaiting i) store [.called i] (.calling i) store
  /-- The handler leaves something in the cell of its instruction. -/
  | leave {store : Store I V X} (i : Issued I) (cell : Cell V) :
      Stride (.calling i) store [] (.calling i) (store.putCell i.cell cell)
  | answered {store : Store I V X} (i : Issued I) (value : V) (cell : Cell V) :
      Stride (.calling i) store [.answered i value] .free (store.putCell i.cell cell)
  /-- The cell does not take the answer. -/
  | rejected {store : Store I V X} (i : Issued I) (value : V) :
      Stride (.calling i) store [.answered i value] .ended store
  | refused {store : Store I V X} (i : Issued I) (failure : Failure) :
      Stride (.calling i) store [.refused i failure] .ended store
  | halt {store : Store I V X} : Stride .free store [] .ended store

/-- Any number of strides. -/
inductive Strides : Hand I → Store I V X → List (Happening I V) → Hand I → Store I V X → Prop
  | refl (hand : Hand I) (store : Store I V X) : Strides hand store [] hand store
  | tail {hand hand' hand'' : Hand I} {store store' store'' : Store I V X}
      {events more : List (Happening I V)} : Strides hand store events hand' store' →
      Stride hand' store' more hand'' store'' → Strides hand store (events ++ more) hand'' store''

namespace Strides

variable {hand hand' hand'' : Hand I} {store store' store'' : Store I V X}
  {events more : List (Happening I V)}

theorem coherent (h : Strides hand store events hand' store') (hc : store.Coherent) :
    store'.Coherent := by
  induction h with
  | refl => exact hc
  | tail _ stride ih =>
    cases stride with
    | act k action hk => exact (ih hc).act hk action
    | opened => exact (ih hc).newSlot
    | collect k suspended => exact (ih hc).collect k
    | issue i => exact (ih hc).issue i
    | read cell _ => exact (ih hc).putCell _ cell
    | leave i cell => exact (ih hc).putCell _ cell
    | answered i value cell => exact (ih hc).putCell _ cell
    | called => exact ih hc
    | rejected => exact ih hc
    | refused => exact ih hc
    | halt => exact ih hc

theorem single (h : Stride hand store events hand' store') :
    Strides hand store events hand' store' :=
  .tail (.refl hand store) h

theorem trans (h : Strides hand store events hand' store')
    (h' : Strides hand' store' more hand'' store'') :
    Strides hand store (events ++ more) hand'' store'' := by
  induction h' with
  | refl => rwa [List.append_nil]
  | tail _ stride ih => exact List.append_assoc .. ▸ .tail (ih h) stride

theorem head (h : Stride hand store events hand' store')
    (h' : Strides hand' store' more hand'' store'') :
    Strides hand store (events ++ more) hand'' store'' :=
  (single h).trans h'

/-- A script that is carried out. -/
theorem run (hand : Hand I) {k : Nat} (hk : k < store.slots.size) (script : Script I V X α) :
    Strides hand store (script.happenings k store) hand (script.run k store).2 := by
  induction script generalizing store with
  | done a => exact .refl hand store
  | act action next ih =>
    have hk' := Nat.lt_of_lt_of_eq hk (Store.size_slots_act store k action).symm
    exact .head (.act k action hk) (ih _ hk')

/-- Requests that are dropped, which takes a slot of some description. -/
theorem dropAll (hand : Hand I) {k : Nat} (hk : k < store.slots.size) (rs : List Nat) :
    Strides hand store (store.droppings rs) hand (store.dropAll rs) := by
  induction rs generalizing store with
  | nil => exact .refl hand store
  | cons r rest ih =>
    have hk' := Nat.lt_of_lt_of_eq hk (store.size_slots_drop r).symm
    exact .head (.act k (.drop r) hk) (ih hk')

end Strides

/-! ### Building nodes -/

section Languages

variable {store : Store I V X} (l : Language I V X T P S)

theorem Language.strides_node (program : P) (store : Store I V X) :
    Strides .free store [] (Stage.reducing (l.node program store).1).hand (l.node program store).2 := by
  unfold Language.node
  cases l.form program with
  | pure value => exact .single .halt
  | delay body => exact .refl .free store
  | tryDelay body => cases body <;> exact .refl .free store
  | fail failure => exact .refl .free store
  | perform i next => exact .single (.issue i)
  | describe start => exact .refl .free store

theorem Language.strides_resumeAt {k : Nat} (hk : k < store.slots.size) (s : S) :
    Strides .free store (l.resumption k s store) (Stage.built (l.resumeAt k s store).1).hand
      (l.resumeAt k s store).2 := by
  have hr := Strides.run .free hk (l.resume s)
  have hz := store.size_slots_run k (l.resume s)
  unfold Language.resumption Language.resumeAt
  generalize (l.resume s).run k store = resumed at hr hz ⊢
  obtain ⟨progress, resumed⟩ := resumed
  have collect (suspended : Bool) := hr.tail (.collect k suspended)
  cases progress with
  | finished value => exact collect false
  | failed failure => exact collect false
  | suspended rest =>
    have h := collect true
    cases hi : (resumed.collect k).1 with
    | some i =>
      simp only [hi] at h ⊢
      exact h
    | none =>
      simp only [hi] at h ⊢
      have hk' : k < (resumed.collect k).2.slots.size := by
        rw [resumed.size_slots_collect k, hz]
        exact hk
      rw [List.append_cons]
      exact h.trans (.dropAll .ended hk' (l.owned rest))

theorem Language.strides_force {thunk : Thunk V P S} (hs : thunk.Sound store) :
    Strides .free store (l.forcing thunk store) (Stage.built (l.force thunk store).1).hand
      (l.force thunk store).2 := by
  cases thunk with
  | build body => exact l.strides_node body store
  | fail failure => exact .single .halt
  | answer c next =>
    have h := Stride.read (store.cellAt c).fetch.2 hs
    rw [Language.forcing, Language.force, Store.takeCell_eq]
    cases (store.cellAt c).fetch.1 with
    | error e => exact .head h (.single .halt)
    | ok value => exact .head h (l.strides_node (next value) _)
  | describe start =>
    have hk : store.slots.size < store.newSlot.2.slots.size := by simp [Store.newSlot]
    exact .head .opened (l.strides_resumeAt hk start)
  | resume slot rest => exact l.strides_resumeAt hs rest

theorem Language.strides_discard {thunk : Thunk V P S} (hs : thunk.Sound store) :
    Strides .ended store (l.discarding thunk store) .ended (l.discard thunk store) := by
  cases thunk with
  | resume slot rest => exact .dropAll .ended hs (l.owned rest)
  | build body => exact .refl .ended store
  | fail failure => exact .refl .ended store
  | answer c next => exact .refl .ended store
  | describe start => exact .refl .ended store

end Languages

namespace Scene

variable [InstructionSet I] {l : Language I V X T P S} {config : RunConfig}
  {handler : Handler I V H} {history : List (Happening I V)} {stats : RunStats} {state : H}
  {hand : Hand I} {store : Store I V X} {scene : Scene I V X T P S H}

/-- Strides lead to a scene. -/
def Led (history : List (Happening I V)) (hand : Hand I) (store : Store I V X)
    (scene : Scene I V X T P S H) : Prop :=
  ∃ events, scene.history = history ++ events ∧
    Strides hand store events scene.run.stage.hand scene.store

omit [InstructionSet I] in
theorem Led.head {hand' : Hand I} {store' : Store I V X} {events : List (Happening I V)}
    (h : Stride hand store events hand' store') (hl : Led (history ++ events) hand' store' scene) :
    Led history hand store scene := by
  obtain ⟨more, hh, hs⟩ := hl
  exact ⟨events ++ more, by rw [hh, List.append_assoc], .head h hs⟩

private theorem led_settled {issued : Issued I} {next : Thunk V P S} (hn : next.Sound store)
    (reply : Except Failure V) :
    Led history (.calling issued) store (settled l history issued next stats store reply state) := by
  cases reply with
  | error failure =>
    exact ⟨_, rfl, .head (.refused issued failure) (l.strides_discard hn)⟩
  | ok value =>
    rw [settled]
    split
    · exact ⟨_, rfl, .head (.answered issued value _) (l.strides_force (hn.putCell _ _))⟩
    · exact ⟨_, rfl, .head (.rejected issued value) (l.strides_discard hn)⟩

private theorem led_dispatching {issued : Issued I} {next : Thunk V P S} {polls : Nat}
    (hb : issued.cell < store.cells.size) (hn : next.Sound store) :
    Led history (.calling issued) store
      (turn l config handler ⟨history, ⟨.dispatching issued next polls, stats, state⟩, store⟩
        .own) := by
  have leave (cell : Cell V) {scene : Scene I V X T P S H}
      (h : Led history (.calling issued) (store.putCell issued.cell cell) scene) :
      Led history (.calling issued) store scene := by
    refine .head (.leave issued cell) ?_
    rwa [List.append_nil]
  rw [turn_polled hb]
  split
  · exact leave _ ⟨[], (List.append_nil _).symm, .refl _ _⟩
  · exact leave _ (led_settled (hn.putCell _ _) _)
  · exact leave _ (led_settled (hn.putCell _ _) _)

/-- The run has given up, and thrown away what would have come next. -/
def Stopped (limit : Nat) (history : List (Happening I V)) (store : Store I V X)
    (scene : Scene I V X T P S H) : Prop :=
  scene.run.outcome? = some (.error (.stepLimitExceeded limit)) ∧ Led history .ended store scene

private theorem stopped_of_exceeded {limit : Nat} {node : Node I T (Thunk V P S)}
    {next : Thunk V P S} (he : config.exceeded? (stats.steps + 1) = some limit)
    (hn : node = .delay next ∨ ∃ issued, node = .await issued next) (hs : next.Sound store) :
    ∃ limit, config.stepLimit = some limit ∧ Stopped limit history store
      (turn l config handler ⟨history, ⟨.reducing node, stats, state⟩, store⟩ .own) := by
  refine ⟨limit, ?_, ?_⟩
  · unfold RunConfig.exceeded? at he
    split at he
    · split at he
      · cases he
        assumption
      · cases he
    · cases he
  · rw [turn_exceeded he hn]
    exact ⟨rfl, _, rfl, l.strides_discard hs⟩

/-- A run that waits to call its handler does so, unless the limit forbids it. -/
theorem Sound.led_awaiting (h : scene.Sound) {i : Issued I}
    (hi : scene.run.stage.hand = .awaiting i) :
    Led (scene.history ++ [.called i]) (.calling i) scene.store
        (scene.turn l config handler .own) ∨
      ∃ limit, config.stepLimit = some limit ∧
        Stopped limit scene.history scene.store (scene.turn l config handler .own) := by
  obtain ⟨history, ⟨stage, stats, state⟩, store⟩ := scene
  obtain ⟨next, rfl⟩ : ∃ next, stage = .reducing (.await i next) := by
    cases stage with
    | ended outcome => cases hi
    | dispatching issued next polls => cases hi
    | reducing node =>
      cases node with
      | await issued next =>
        cases hi
        exact ⟨next, rfl⟩
      | _ => cases hi
  cases he : config.exceeded? (stats.steps + 1) with
  | some limit => exact .inr (stopped_of_exceeded he (.inr ⟨i, rfl⟩) (h.thunk next rfl))
  | none =>
    rw [turn_await he]
    exact .inl (led_dispatching (h.hand_lt rfl) (h.thunk next rfl))

/-- A turn of the run is made of strides, unless the limit forbids it. -/
theorem Sound.led (h : scene.Sound) :
    Led scene.history scene.run.stage.hand scene.store (scene.turn l config handler .own) ∨
      ∃ limit, config.stepLimit = some limit ∧
        Stopped limit scene.history scene.store (scene.turn l config handler .own) := by
  obtain ⟨history, ⟨stage, stats, state⟩, store⟩ := scene
  cases stage with
  | ended outcome =>
    rw [turn_ended]
    exact .inl ⟨[], (List.append_nil _).symm, .refl _ _⟩
  | dispatching issued next polls => exact .inl (led_dispatching (h.hand_lt rfl) (h.thunk next rfl))
  | reducing node =>
    cases node with
    | result value =>
      rw [turn_result]
      exact .inl ⟨[], (List.append_nil _).symm, .refl _ _⟩
    | delay next =>
      cases he : config.exceeded? (stats.steps + 1) with
      | some limit => exact .inr (stopped_of_exceeded he (.inl rfl) (h.thunk next rfl))
      | none =>
        rw [turn_delay he]
        exact .inl ⟨_, rfl, l.strides_force (h.thunk next rfl)⟩
    | await issued next => exact (h.led_awaiting rfl).imp (.head (.called issued)) id

end Scene

/-! ### What strides preserve -/

/-- What every stride preserves, and everything that others may do. It holds as well of a run that is
given up. -/
structure Steady (allowed : Deed I V X → Prop)
    (inv : List (Happening I V) → Store I V X → Hand I → Prop) : Prop where
  stride : ∀ {history events : List (Happening I V)} {store store' : Store I V X}
    {hand hand' : Hand I}, inv history store hand → Stride hand store events hand' store' →
      inv (history ++ events) store' hand'
  stop : ∀ {history : List (Happening I V)} {store : Store I V X} {hand : Hand I},
    inv history store hand → inv history store .ended
  deed : ∀ {history : List (Happening I V)} {store : Store I V X} {hand : Hand I}
    (deed : Deed I V X), allowed deed → inv history store hand →
      inv (history ++ deed.happenings store) (deed.apply store) hand

namespace Steady

variable {allowed : Deed I V X → Prop} {inv : List (Happening I V) → Store I V X → Hand I → Prop}
  {history events : List (Happening I V)} {store store' : Store I V X} {hand hand' : Hand I}

theorem strides (hi : Steady allowed inv) (h : inv history store hand)
    (hs : Strides hand store events hand' store') : inv (history ++ events) store' hand' := by
  induction hs with
  | refl => rwa [List.append_nil]
  | tail _ stride ih => exact List.append_assoc .. ▸ hi.stride (ih h) stride

variable [InstructionSet I] {l : Language I V X T P S} {config : RunConfig} {handler : Handler I V H}
  {scene : Scene I V X T P S H}

omit [InstructionSet I] in
theorem led (hi : Steady allowed inv) (h : inv history store hand)
    (hl : Scene.Led history hand store scene) :
    inv scene.history scene.store scene.run.stage.hand := by
  obtain ⟨events, hh, hs⟩ := hl
  exact hh ▸ hi.strides h hs

theorem own (hi : Steady allowed inv) (hs : scene.Sound)
    (h : inv scene.history scene.store scene.run.stage.hand) :
    inv (scene.turn l config handler .own).history (scene.turn l config handler .own).store
      (scene.turn l config handler .own).run.stage.hand := by
  generalize hn : scene.turn l config handler .own = next
  obtain hl | ⟨_, _, _, hl⟩ := hn ▸ hs.led
  · exact hi.led h hl
  · exact hi.led (hi.stop h) hl

/-- What is steady holds after any number of turns. -/
theorem play (hi : Steady allowed inv) (hs : scene.Sound)
    (h : inv scene.history scene.store scene.run.stage.hand) {turns : List (Turn I V X)}
    (ha : ∀ deed, .other deed ∈ turns → allowed deed) :
    inv (scene.play l config handler turns).history (scene.play l config handler turns).store
      (scene.play l config handler turns).run.stage.hand := by
  induction turns generalizing scene with
  | nil => exact h
  | cons turn turns ih =>
    refine ih (hs.turn turn) ?_ fun deed hd => ha deed (List.mem_cons_of_mem _ hd)
    cases turn with
    | own => exact hi.own hs h
    | other deed => exact hi.deed deed (ha deed List.mem_cons_self) h

omit [InstructionSet I] in
/-- What holds before a program begins holds of its first node. -/
theorem start (hi : Steady allowed inv) (l : Language I V X T P S) (program : P) (state : H)
    (h : inv [] store .free) :
    inv (Scene.start l program state store).history (Scene.start l program state store).store
      (Scene.start l program state store).run.stage.hand :=
  hi.strides h (l.strides_node program store)

end Steady

end Trampoline
