import Trampoline.Proofs.Nested.Opaque
import Trampoline.Proofs.Nested.Sequentialised
import Trampoline.Proofs.Sequential.Answered
import Trampoline.Wakeful

/-!
Requests that are made together. A join that polls each of its branches again and again carries them out one
after the other and comes to their answers. A join that is driven by wakers is resumed when the first of
them has been answered, but no waker has been invoked by then. So it polls nothing, and the run fails.
-/
namespace Trampoline

variable {I V X T α P S H : Type}

namespace Nested

open Trampoline.Sequential (all each)

/-- Results that are all answers are gathered. -/
theorem gathered_answers (values : List V) :
    gathered (I := I) (values.map fun value => .ok [value]) = .pure values := by
  have h : (values.map fun value => (.ok [value] : Except Failure (List V))).mapM id =
      .ok (values.map fun value => [value]) := by
    induction values with
    | nil => rfl
    | cons value values ih =>
      rw [List.map_cons, List.mapM_cons, ih]
      rfl
  rw [gathered, h]
  exact congrArg Nested.pure (List.flatMap_singleton' values)

private theorem all_readings_bind (instructions : List I)
    (next : List (Except Failure (List V)) → Sequential I V T) :
    (all (readings (instructions.map fun i =>
        Nested.perform i fun value : V => .pure [value]))).bind next =
      each (fun values => next (values.map fun value => .ok [value])) instructions := by
  induction instructions generalizing next with
  | nil => rfl
  | cons i rest ih =>
    refine congrArg (Sequential.perform i) (funext fun value => ?_)
    change ((all (readings _)).bind _).bind next = _
    rw [Sequential.bind_assoc]
    exact ih _

/-- What is requested together is read as one instruction after the other. -/
theorem sequential_together (instructions : List I) :
    (together instructions : Nested I V (List V)).sequential = each .pure instructions := by
  rw [sequential, together, reading, Sequential.bind_assoc, all_readings_bind]
  congr 1
  funext values
  rw [gathered_answers]
  rfl

end Nested

/-! ### The shared value -/

/-- A script that cannot tell the shared value from any other leaves it as it is. -/
theorem Script.shared_run {related : Names → α → α → Prop} {names : Names}
    {script script' : Script I V X α} {x : X}
    (h : Alike (fun _ => True) (fun _ y _ => y = x) related names script script') {k : Nat}
    {store : Store I V X} (hx : store.shared = x) : (script.run k store).2.shared = x := by
  -- The two shared values need not be alike but for the first being `x`, so nothing else can be shared.
  induction h generalizing store with
  | done _ => exact hx
  | request i _ ih => exact ih _ 0 trivial hx
  | @poll names next next' r r' _ _ ih =>
    exact ih _ ((store.shared_poll r).trans hx)
  | @drop names next next' r r' _ _ ih => exact ih ((store.shared_drop r).trans hx)
  | look _ ih => exact ih _ x hx hx
  | share hs _ ih => exact ih hs
  | strayPoll hr => exact absurd trivial hr
  | strayDrop hr => exact absurd trivial hr

namespace Nested

variable {k : Nat} {store : Store I V X}

/-- The first poll of a description puts nothing into the queue. -/
theorem shared_start (d : Nested I V T) (k : Nat) (store : Store I V X) :
    (d.start.run k store).2.shared = store.shared :=
  Script.shared_run (d.alike_start []) rfl

/-- A join that performs something is not over with its first poll. -/
theorem start_joining {branches : List (Nested I V T)} {i : I}
    {rest : V → Sequential I V (List (Except Failure T))}
    (hb : Sequential.all (readings branches) = .perform i rest)
    (next : List (Except Failure T) → Nested I V T) (hc : store.Coherent)
    (hk : k < store.slots.size) :
    ∃ as, ((join branches next).start.run k store).1 = .joining as next ∧
      Activity.results? as = none := by
  have hs : Branches k store (starts branches) (readings branches) :=
    (branches_starts (fun d _ => d.start_goes) store).1
  have hw := hs.gather_goes hc hk
  have hn : Activity.results? ((Script.gather (starts branches)).run k store).1 = none := by
    have hv : Activity.results? _ = (Sequential.all (readings branches)).value? := hw.value
    rw [hv, hb]
    rfl
  refine ⟨_, ?_, hn⟩
  rw [start, Script.run_bind, Script.joined, hn]
  rfl

/-- Where a join is resumed for the first time, the node of its first instruction comes out. -/
theorem force_join {branches : List (Nested I V T)} {i : I}
    {rest : V → Sequential I V (List (Except Failure T))}
    (hb : Sequential.all (readings branches) = .perform i rest)
    (next : List (Except Failure T) → Nested I V T) {store : Store I V (List Nat)}
    (hc : store.Coherent) : ∃ k as issued store',
      wakeful.force (.describe (.fresh (.join branches next))) store =
        (.ok (.await issued (.resume k (.begun (.joining as next)))), store') ∧
      Activity.results? as = none ∧ issued.instruction = i ∧ store'.shared = store.shared ∧
      issued.cell < store'.cells.size ∧ store'.cellAt issued.cell = .empty ∧
      ∀ value, (store'.putCell issued.cell (.full value)).taken k = false := by
  have hk : store.slots.size < store.newSlot.2.slots.size := by
    rw [Store.newSlot, Array.size_push]
    exact Nat.lt_succ_self _
  obtain ⟨as, hj, hr⟩ := start_joining hb next hc.newSlot hk
  have hg := (join branches next).start_goes hc.newSlot hk
  have hs := (join branches next).shared_start store.slots.size store.newSlot.2
  have hn : (join branches next).reading.value? = none := by
    rw [reading, hb]
    rfl
  obtain ⟨i', next', r, hp, hh⟩ := hg.head store.taken_newSlot hn
  rw [reading, hb] at hp
  cases hp
  obtain ⟨issued, he, hi, hcell, hempty, hput⟩ :=
    Store.collect_of_holds hg.frame.coherent hh.holds
  refine ⟨_, as, issued, _, ?_, hr, hi, (Store.shared_collect _ _).trans hs, hcell, hempty,
    fun value => (hput value).2.2.1⟩
  change wakeful.resumeAt store.slots.size (.fresh (.join branches next)) store.newSlot.2 = _
  have hrun : (wakeful.resume (.fresh (.join branches next))).run store.slots.size store.newSlot.2 =
      (.suspended (.begun (.joining as next)),
        ((join branches next).start.run store.slots.size store.newSlot.2).2) := by
    change ((join branches next).start.bind fun a => .done (Resumable.progress a)).run _ _ = _
    rw [Script.run_bind, hj]
    rfl
  rw [Language.resumeAt_eq, hrun]
  simp only [Language.concluded, he]

/-- Branches that are not woken stay as they are. -/
theorem gather_unwoken (place : Nat) (as : List (Activity I V T)) :
    Script.gather (Activity.attend (X := X) (fun _ => false) place as) = .done as := by
  induction as generalizing place with
  | nil => rfl
  | cons a rest ih =>
    rw [Activity.attend, Script.gather, ih]
    rfl

/-- Where the queue is empty a join polls nothing, and so it waits for no instruction. -/
theorem resumeAt_unwoken {as : List (Activity I V T)} (hr : Activity.results? as = none)
    (next : List (Except Failure T) → Nested I V T) {store : Store I V (List Nat)}
    (hs : store.shared = []) (ht : store.taken k = false) :
    (wakeful.resumeAt k (.begun (.joining as next)) store).1 = .error .foreignSuspension := by
  have hw : (store.shared.contains : Nat → Bool) = fun _ => false := by
    rw [hs]
    rfl
  have hrun : (wakeful.resume (.begun (.joining as next))).run k store =
      (.suspended (.begun (.joining as next)), { store with shared := [] }) := by
    change ((Activity.pollWoken store.shared.contains (.joining as next)).bind _).run k
      { store with shared := [] } = _
    rw [hw, Activity.pollWoken, gather_unwoken, Script.bind, Script.joined, hr]
    rfl
  obtain ⟨_, he⟩ | ⟨ht', _⟩ := wakeful.resumeAt_of_suspended (congrArg Prod.fst hrun)
  · exact he
  · rw [hrun] at ht'
    exact absurd ht' (Bool.eq_false_iff.mp ht)

end Nested

namespace Scene

open Nested (together wakeful)
open Trampoline.Sequential (Performance)

/-- A run comes to an end. Its handler was called for certain instructions by then, and has answered each
of them. -/
def Ends (run : Nat → Scene I V X T P S H) (outcome : Except RunError T) (answers : List (I × V))
    (state : H) : Prop :=
  ∃ n, (run n).run.outcome? = some outcome ∧ (run n).dealings = Dealing.exchanged answers ∧
    (run n).run.stats.dispatches = answers.length ∧ (run n).run.handler = state

variable [InstructionSet I] {handler : Handler I V H} {state state' : H}

/-- There is only one end. -/
theorem Ends.outcome_eq {l : Language I V X T P S} {config : RunConfig} {first : Scene I V X T P S H}
    {outcome outcome' : Except RunError T} {answers answers' : List (I × V)}
    (h : Ends (first.alone l config handler) outcome answers state)
    (h' : Ends (first.alone l config handler) outcome' answers' state') : outcome = outcome' := by
  obtain ⟨m, hm, _⟩ := h
  obtain ⟨n, hn, _⟩ := h'
  have hmn := alone_of_outcome? hm (Nat.le_max_left m n)
  have hnm := alone_of_outcome? hn (Nat.le_max_right m n)
  rw [← hmn, hnm, hn] at hm
  exact (Option.some.inj hm).symm

/-- A join that polls all branches comes to the answers of all. -/
theorem ends_together {answers : List (I × V)} (h : handler.Answers state answers state')
    (config : RunConfig) (shared : X) :
    Ends ((start Nested.language (together (answers.map Prod.fst)) state (.fresh shared)).alone
        Nested.language (config.limited none) handler)
      (.ok (answers.map Prod.snd)) answers state' := by
  obtain ⟨n, hn⟩ := Performance.reaches_each h .pure [] 0
  have hp : (together (answers.map Prod.fst)).sequential.performed handler state (n + 1) =
      ⟨.ended (.ok (answers.map Prod.snd)), state', Dealing.exchanged answers, answers.length⟩ := by
    rw [Sequential.performed_eq_iterate, Nested.sequential_together, Function.iterate_succ_apply',
      hn, List.nil_append, Nat.zero_add]
    rfl
  obtain ⟨hu, hf⟩ :=
    (together (answers.map Prod.fst)).follows_sequential (Store.Coherent.fresh shared)
  have hs : ((start Nested.language (together (answers.map Prod.fst)) state (.fresh shared)).alone
      Nested.language (config.limited none) handler (n + 2)).Shows Nested.language 1 _ :=
    shows_described rfl hu hf state (n + 1)
  rw [hp] at hs
  exact ⟨n + 2, hs.outcome? rfl, hs.dealings, hs.dispatches, hs.handler⟩

/-- A join that is driven by wakers never gets beyond the first of its instructions. -/
theorem ends_unwoken {branches : List (Nested I V T)} {i : I} {value : V}
    {rest : V → Sequential I V (List (Except Failure T))}
    (hb : Sequential.all (Nested.readings branches) = .perform i rest)
    (next : List (Except Failure T) → Nested I V T)
    (h : handler.Replies i value state' 0 state .empty) (config : RunConfig) :
    Ends ((start wakeful (.join branches next) state (.fresh [])).alone wakeful (config.limited none)
        handler)
      (.error (.build .foreignSuspension)) [(i, value)] state' := by
  obtain ⟨k, as, issued, store, hforce, hr, rfl, hs, hb', hc, hput⟩ :=
    Nested.force_join hb next (Store.Coherent.fresh [])
  have hstart : start wakeful (.join branches next) state (.fresh []) =
      ⟨[], ⟨.reducing (.delay (.describe (.fresh (.join branches next)))), .zero, state⟩, .fresh []⟩ :=
    rfl
  have hd : Leads wakeful (config.limited none) handler
      (start wakeful (.join branches next) state (.fresh [])) _ :=
    hstart ▸ leads_delay rfl _
  rw [hforce] at hd
  obtain ⟨n, hn⟩ := hd.trans (leads_answered rfl h hb' hc _)
  -- Neither the polls before nor the answer have put anything into the queue.
  have hs' : (store.putCell issued.cell (.full value)).shared = [] := hs
  have he : (wakeful.force (.resume k (.begun (.joining as next)))
      (store.putCell issued.cell (.full value))).1 = .error .foreignSuspension :=
    Nested.resumeAt_unwoken hr next hs' (hput value)
  refine ⟨n, ?_⟩
  rw [hn, he]
  refine ⟨rfl, ?_, rfl, rfl⟩
  simp only [dealings, List.filterMap_append, List.filterMap_cons, Happening.dealing?,
    Language.dealings_forcing]
  rfl

/-- Requests that are made together are all carried out if the join polls all of them each time. If it waits
for wakers the run fails as soon as the first request is answered, however many there are. -/
theorem together_needs_polls {answers : List (I × V)} (h : handler.Answers state answers state')
    (hn : answers ≠ []) (config : RunConfig) :
    Ends ((start Nested.language (together (answers.map Prod.fst)) state
          (.fresh ([] : List Nat))).alone Nested.language (config.limited none) handler)
        (.ok (answers.map Prod.snd)) answers state' ∧
      ∃ state₁, handler.Answers state (answers.take 1) state₁ ∧
        Ends ((start wakeful (together (answers.map Prod.fst)) state (.fresh [])).alone wakeful
            (config.limited none) handler)
          (.error (.build .foreignSuspension)) (answers.take 1) state₁ := by
  refine ⟨ends_together h config [], ?_⟩
  cases h with
  | nil _ => exact absurd rfl hn
  | @cons _ state₁ _ i value rest hr _ =>
    exact ⟨state₁, .cons hr (.nil state₁), ends_unwoken rfl Nested.gathered hr config⟩

end Scene

/-! ### Two enquiries -/

namespace Booking

open Nested (together wakeful)

/-- The reservations on two days at the house, and what the house answers. -/
def enquiries : List (Instruction × Answer) :=
  [(.read demo.date, .found demo.house.reservations), (.read "2026-05-02", .found [])]

private theorem enquiries_answered : House.handler.Answers demo.house enquiries demo.house :=
  .cons (.now rfl) (.cons (.now rfl) (.nil _))

theorem enquiries_need_polls :
    House.handler.Answers demo.house enquiries demo.house ∧ enquiries ≠ [] ∧
      Scene.Ends ((Scene.start Nested.language (together (enquiries.map Prod.fst)) demo.house
            (.fresh ([] : List Nat))).alone Nested.language (RunConfig.default.limited none)
          House.handler)
        (.ok (enquiries.map Prod.snd)) enquiries demo.house ∧
      ∃ house, House.handler.Answers demo.house (enquiries.take 1) house ∧
        Scene.Ends ((Scene.start wakeful (together (enquiries.map Prod.fst)) demo.house
              (.fresh [])).alone wakeful (RunConfig.default.limited none) House.handler)
          (.error (.build .foreignSuspension)) (enquiries.take 1) house :=
  ⟨enquiries_answered, nofun,
    Scene.together_needs_polls enquiries_answered nofun .default⟩

/-- Not all that is requested together is carried out where the join waits for wakers. -/
theorem not_ends_of_wakeful :
    ¬ ∀ (handler : Handler Instruction Answer House) (answers : List (Instruction × Answer))
        (house house' : House), answers ≠ [] → handler.Answers house answers house' →
      Scene.Ends ((Scene.start wakeful (together (answers.map Prod.fst)) house (.fresh [])).alone
          wakeful (RunConfig.default.limited none) handler)
        (.ok (answers.map Prod.snd)) answers house' := by
  intro h
  have hok := h House.handler enquiries demo.house demo.house nofun enquiries_answered
  have hfail : Scene.Ends ((Scene.start wakeful (together (enquiries.map Prod.fst)) demo.house
        (.fresh [])).alone wakeful (RunConfig.default.limited none) House.handler)
      (.error (.build .foreignSuspension)) (enquiries.take 1) demo.house :=
    Scene.ends_unwoken rfl Nested.gathered (.now rfl) .default
  cases hok.outcome_eq hfail

end Booking

end Trampoline
