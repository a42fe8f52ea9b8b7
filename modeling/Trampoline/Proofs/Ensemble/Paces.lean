import Trampoline.Proofs.History.Actions
import Trampoline.Proofs.Runs.Strides

/-!
Runs of descriptions. A description has one slot, which is opened when the description begins. Whatever
its run does after that is done by the description itself, to its slot, or to the cell of the instruction
in hand.
-/
namespace Trampoline

variable {I V X α T P S H : Type}

/-- One stride of the run of a description with slot number `k`. -/
inductive Pace (k : Nat) : Hand I → Store I V X → List (Happening I V) → Hand I → Store I V X → Prop
  | act {hand : Hand I} {store : Store I V X} (action : Action I X) : k < store.slots.size →
      Pace k hand store (store.acting action) hand (store.act k action).2
  | collect {store : Store I V X} (suspended : Bool) :
      Pace k .free store [.collected k suspended (store.collect k).1]
        (.resumed suspended (store.collect k).1) (store.collect k).2
  | called {store : Store I V X} (i : Issued I) : Pace k (.awaiting i) store [.called i] (.calling i) store
  | leave {store : Store I V X} (i : Issued I) (cell : Cell V) :
      Pace k (.calling i) store [] (.calling i) (store.putCell i.cell cell)
  | answered {store : Store I V X} (i : Issued I) (value : V) (cell : Cell V) :
      Pace k (.calling i) store [.answered i value] .free (store.putCell i.cell cell)
  | rejected {store : Store I V X} (i : Issued I) (value : V) :
      Pace k (.calling i) store [.answered i value] .ended store
  | refused {store : Store I V X} (i : Issued I) (failure : Failure) :
      Pace k (.calling i) store [.refused i failure] .ended store

/-- Any number of such strides. -/
inductive Paces (k : Nat) : Hand I → Store I V X → List (Happening I V) → Hand I → Store I V X → Prop
  | refl (hand : Hand I) (store : Store I V X) : Paces k hand store [] hand store
  | tail {hand hand' hand'' : Hand I} {store store' store'' : Store I V X}
      {events more : List (Happening I V)} : Paces k hand store events hand' store' →
      Pace k hand' store' more hand'' store'' → Paces k hand store (events ++ more) hand'' store''

namespace Paces

variable {k : Nat} {hand hand' hand'' : Hand I} {store store' store'' : Store I V X}
  {events more : List (Happening I V)}

theorem trans (h : Paces k hand store events hand' store')
    (h' : Paces k hand' store' more hand'' store'') :
    Paces k hand store (events ++ more) hand'' store'' := by
  induction h' with
  | refl => rwa [List.append_nil]
  | tail _ pace ih => exact List.append_assoc .. ▸ .tail (ih h) pace

theorem head (h : Pace k hand store events hand' store')
    (h' : Paces k hand' store' more hand'' store'') :
    Paces k hand store (events ++ more) hand'' store'' :=
  (tail (.refl hand store) h).trans h'

theorem run (hand : Hand I) (hk : k < store.slots.size) (script : Script I V X α) :
    Paces k hand store (script.happenings k store) hand (script.run k store).2 := by
  induction script generalizing store with
  | done a => exact .refl hand store
  | act action next ih =>
    have hk' := Nat.lt_of_lt_of_eq hk (Store.size_slots_act store k action).symm
    exact .head (.act action hk) (ih _ hk')

theorem dropAll (hand : Hand I) (hk : k < store.slots.size) (rs : List Nat) :
    Paces k hand store (store.droppings rs) hand (store.dropAll rs) := by
  induction rs generalizing store with
  | nil => exact .refl hand store
  | cons r rest ih =>
    have hk' := Nat.lt_of_lt_of_eq hk (store.size_slots_drop r).symm
    exact .head (.act (.drop r) hk) (ih hk')

end Paces

theorem Language.paces_resumeAt (l : Language I V X T P S) {store : Store I V X} {k : Nat}
    (hk : k < store.slots.size) (s : S) :
    Paces k .free store (l.resumption k s store) (Stage.built (l.resumeAt k s store).1).hand
      (l.resumeAt k s store).2 := by
  have hr := Paces.run .free hk (l.resume s)
  have hz := store.size_slots_run k (l.resume s)
  unfold Language.resumption Language.resumeAt
  generalize (l.resume s).run k store = resumed at hr hz ⊢
  obtain ⟨progress, resumed⟩ := resumed
  have collect (suspended : Bool) := hr.tail (.collect suspended)
  cases progress with
  | finished value => exact collect false
  | failed failure => exact collect false
  | suspended rest =>
    have h := collect true
    cases hi : (resumed.collect k).1 with
    | some i =>
      simp only [hi] at h ⊢
      exact h
    | none =>
      simp only [hi] at h ⊢
      have hk' : k < (resumed.collect k).2.slots.size := by
        rw [resumed.size_slots_collect k, hz]
        exact hk
      rw [List.append_cons]
      exact h.trans (.dropAll .ended hk' (l.owned rest))

/-! ### Turns -/

/-- Where the run of a description can stand, given the slot that the description has. -/
inductive Stage.Described : Option Nat → Stage I T (Thunk V P S) → Prop
  | fresh (s : S) : Described none (.reducing (.delay (.describe s)))
  | awaiting (k : Nat) (i : Issued I) (rest : S) :
      Described (some k) (.reducing (.await i (.resume k rest)))
  | calling (k : Nat) (i : Issued I) (rest : S) (polls : Nat) :
      Described (some k) (.dispatching i (.resume k rest) polls)
  | returned (k : Nat) (value : T) : Described (some k) (.reducing (.result value))
  | ended (slot : Option Nat) (outcome : Except RunError T) : Described slot (.ended outcome)

theorem Language.described_resumeAt (l : Language I V X T P S) (k : Nat) (s : S)
    (store : Store I V X) : (Stage.built (l.resumeAt k s store).1).Described (some k) := by
  unfold Language.resumeAt
  generalize (l.resume s).run k store = resumed
  obtain ⟨progress, resumed⟩ := resumed
  cases progress with
  | finished value => exact .returned k value
  | failed failure => exact .ended _ _
  | suspended rest =>
    cases hi : (resumed.collect k).1 with
    | some i =>
      simp only [hi]
      exact .awaiting k i rest
    | none =>
      simp only [hi]
      exact .ended _ _

/-- What a turn of such a run comes to. The description begins in it, or goes on, or nothing is done any
more but to throw away what it has. -/
inductive Leg : Option Nat → Hand I → Store I V X → List (Happening I V) → Option Nat → Hand I →
    Store I V X → Prop
  | idle {hand : Hand I} {store : Store I V X} : Leg none hand store [] none .ended store
  | begun {hand' : Hand I} {store store' : Store I V X} {events : List (Happening I V)} :
      Paces store.slots.size .free store.newSlot.2 events hand' store' →
      Leg none .free store (.opened store.slots.size :: events) (some store.slots.size) hand' store'
  | gone {k : Nat} {hand hand' : Hand I} {store store' : Store I V X}
      {events : List (Happening I V)} : Paces k hand store events hand' store' →
      Leg (some k) hand store events (some k) hand' store'
  | stopped {k : Nat} {hand hand' : Hand I} {store store' : Store I V X}
      {events : List (Happening I V)} : Paces k .ended store events hand' store' →
      Leg (some k) hand store events (some k) hand' store'

namespace Scene

variable [InstructionSet I] {l : Language I V X T P S} {config : RunConfig}
  {handler : Handler I V H} {history : List (Happening I V)} {stats : RunStats} {state : H}
  {store : Store I V X} {scene : Scene I V X T P S H} {slot : Option Nat} {hand : Hand I}

/-- Strides of the run of a description lead to a scene. -/
def Went (k : Nat) (history : List (Happening I V)) (hand : Hand I) (store : Store I V X)
    (scene : Scene I V X T P S H) : Prop :=
  ∃ events, scene.history = history ++ events ∧
    Paces k hand store events scene.run.stage.hand scene.store ∧
    scene.run.stage.Described (some k)

omit [InstructionSet I] in
theorem Went.head {k : Nat} {hand' : Hand I} {store' : Store I V X} {events : List (Happening I V)}
    (h : Pace k hand store events hand' store')
    (hw : Went k (history ++ events) hand' store' scene) : Went k history hand store scene := by
  obtain ⟨more, hh, hp, hd⟩ := hw
  exact ⟨events ++ more, by rw [hh, List.append_assoc], .head h hp, hd⟩

private theorem went_settled {k : Nat} (hk : k < store.slots.size) (i : Issued I) (rest : S)
    (reply : Except Failure V) :
    Went k history (.calling i) store
      (settled l history i (.resume k rest) stats store reply state) := by
  cases reply with
  | error failure => exact ⟨_, rfl, .head (.refused i failure) (.dropAll .ended hk _), .ended _ _⟩
  | ok value =>
    rw [settled]
    split
    · rename_i filled _
      exact ⟨_, rfl, .head (.answered i value filled) (l.paces_resumeAt (by exact hk) rest),
        l.described_resumeAt k rest _⟩
    · exact ⟨_, rfl, .head (.rejected i value) (.dropAll .ended hk _), .ended _ _⟩

private theorem went_polled {k : Nat} (hk : k < store.slots.size) {i : Issued I}
    (hb : i.cell < store.cells.size) (rest : S) (polls : Nat) :
    Went k history (.calling i) store
      (turn l config handler ⟨history, ⟨.dispatching i (.resume k rest) polls, stats, state⟩, store⟩
        .own) := by
  have leave (cell : Cell V) {scene : Scene I V X T P S H}
      (h : Went k history (.calling i) (store.putCell i.cell cell) scene) :
      Went k history (.calling i) store scene := by
    refine .head (.leave i cell) ?_
    rwa [List.append_nil]
  rw [turn_polled hb]
  split
  · exact leave _ ⟨[], (List.append_nil _).symm, .refl _ _, .calling k i rest _⟩
  · exact leave _ (went_settled (by exact hk) i rest _)
  · exact leave _ (went_settled (by exact hk) i rest _)

/-- A leg leads to a scene. -/
def Reached (slot : Option Nat) (history : List (Happening I V)) (hand : Hand I) (store : Store I V X)
    (scene : Scene I V X T P S H) : Prop :=
  ∃ slot' events, scene.history = history ++ events ∧
    Leg slot hand store events slot' scene.run.stage.hand scene.store ∧
    scene.run.stage.Described slot'

omit [InstructionSet I] in
theorem Went.reached {k : Nat} (h : Went k history hand store scene) :
    Reached (some k) history hand store scene := by
  obtain ⟨events, hh, hp, hd⟩ := h
  exact ⟨some k, events, hh, .gone hp, hd⟩

/-- One turn of the run of a description. -/
theorem Sound.reached (h : scene.Sound) (hd : scene.run.stage.Described slot) :
    Reached slot scene.history scene.run.stage.hand scene.store
      (scene.turn l config handler .own) := by
  obtain ⟨history, ⟨stage, stats, state⟩, store⟩ := scene
  cases hd with
  | ended slot outcome =>
    rw [turn_ended]
    refine ⟨slot, [], (List.append_nil _).symm, ?_, .ended _ _⟩
    cases slot with
    | none => exact .idle
    | some k => exact .gone (.refl _ _)
  | returned k value =>
    rw [turn_result]
    exact ⟨some k, [], (List.append_nil _).symm, .gone (.refl _ _), .ended _ _⟩
  | fresh s =>
    cases he : config.exceeded? (stats.steps + 1) with
    | some limit =>
      rw [turn_exceeded he (.inl rfl)]
      exact ⟨none, [], rfl, .idle, .ended _ _⟩
    | none =>
      rw [turn_delay he]
      have hk : store.slots.size < store.newSlot.2.slots.size := by simp [Store.newSlot]
      exact ⟨some store.slots.size, _, rfl, .begun (l.paces_resumeAt hk s),
        l.described_resumeAt _ s _⟩
  | awaiting k i rest =>
    have hk : k < store.slots.size := h.thunk _ rfl
    cases he : config.exceeded? (stats.steps + 1) with
    | some limit =>
      rw [turn_exceeded he (.inr ⟨i, rfl⟩)]
      exact ⟨some k, _, rfl, .stopped (.dropAll .ended hk _), .ended _ _⟩
    | none =>
      rw [turn_await he]
      exact (Went.head (.called i) (went_polled hk (h.hand_lt rfl) rest 0)).reached
  | calling k i rest polls =>
    have hk : k < store.slots.size := h.thunk _ rfl
    exact (went_polled hk (h.hand_lt rfl) rest polls).reached

end Scene

end Trampoline
