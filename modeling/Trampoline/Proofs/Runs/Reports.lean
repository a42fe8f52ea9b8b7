import Trampoline.Scenario.Session

/-!
What is reported of a run. The span of the run is opened first, and nothing that is reported afterwards
opens another, so that everything lies within the one span.
-/
namespace Trampoline

variable {I V X T N H : Type}

namespace Event

/-- None of the events opens a span. -/
def Within (events : List Event) : Prop :=
  ∀ event ∈ events, event.isSpan = false

theorem Within.append {events events' : List Event} (h : Within events) (h' : Within events') :
    Within (events ++ events') :=
  List.forall_mem_append.mpr ⟨h, h'⟩

theorem within_singleton {event : Event} (h : event.isSpan = false) : Within [event] :=
  List.forall_mem_singleton.mpr h

/-- What was reported, and then more that opens no span. -/
def Continues (reported reported' : Array Event) : Prop :=
  ∃ told, Within told ∧ reported'.toList = reported.toList ++ told

theorem Continues.refl (reported : Array Event) : Continues reported reported :=
  ⟨[], List.forall_mem_nil _, (List.append_nil _).symm⟩

theorem Continues.trans {first second third : Array Event} (h : Continues first second)
    (h' : Continues second third) : Continues first third := by
  obtain ⟨told, ht, hs⟩ := h
  obtain ⟨told', ht', hs'⟩ := h'
  exact ⟨told ++ told', ht.append ht', by rw [hs', hs, List.append_assoc]⟩

theorem continues_push (reported : Array Event) {events : List Event} (h : Within events) :
    Continues reported (events.foldl Array.push reported) :=
  ⟨events, h, by simp⟩

end Event

open Event (Within Continues within_singleton)

namespace Handler

/-- A handler that reports no spans. -/
def OpensNoSpan (handler : Handler I V H) : Prop :=
  ∀ instruction polls state cell, Within (handler.poll instruction polls state cell).events

variable [InstructionSet I] {handler : Handler I V H}

theorem OpensNoSpan.recorded (h : handler.OpensNoSpan) : handler.recorded.OpensNoSpan :=
  fun instruction polls state cell => h instruction polls state.inner cell

theorem OpensNoSpan.logged (h : handler.OpensNoSpan) : handler.logged.OpensNoSpan := by
  intro instruction polls state cell
  refine Within.append (Within.append ?_ (h instruction polls state cell)) ?_
  · split
    · exact within_singleton rfl
    · exact List.forall_mem_nil _
  · split
    · exact within_singleton rfl
    · exact within_singleton rfl
    · exact List.forall_mem_nil _

theorem OpensNoSpan.layered (h : handler.OpensNoSpan) :
    (layers : List Layer) → (handler.layered layers).OpensNoSpan
  | [] => h
  | .logging :: layers => (h.layered layers).logged
  | .recording :: layers => (h.layered layers).recorded

theorem OpensNoSpan.dispatch (h : handler.OpensNoSpan) (instruction : I) (polls : Nat) (state : H)
    (cell : Cell V) : Within (handler.dispatch instruction polls state cell).2.2.2 := by
  have hp := h instruction polls state cell
  unfold Handler.dispatch
  dsimp only
  split
  · exact hp
  · exact hp
  · split <;> exact hp

end Handler

namespace Executor

variable {executor : Executor I V X T N H} {before : List Event}

private theorem within_proceed {report : BuildError → Event} (hr : ∀ e, (report e).isSpan = false)
    (stats : RunStats) (state : H) (hb : Within before)
    (built : Except BuildError (Node I T N) × Store I V X) :
    Within (executor.proceed report stats state before built).events := by
  obtain ⟨_ | _, _⟩ := built
  · exact hb.append (within_singleton (hr _))
  · exact hb

private theorem within_giveUp (limit : Nat) (next : N) (stats : RunStats) (state : H)
    (store : Store I V X) (hb : Within before) :
    Within (executor.giveUp limit next stats state store before).events :=
  hb.append (within_singleton rfl)

variable [InstructionSet I]

private theorem within_pollHandler (h : executor.handler.OpensNoSpan) (issued : Issued I) (next : N)
    (polls : Nat) (stats : RunStats) (state : H) (store : Store I V X) (hb : Within before) :
    Within (executor.pollHandler issued next polls stats state store before).events := by
  have hd := h.dispatch issued.instruction polls state (store.cellAt issued.cell)
  dsimp only [pollHandler]
  generalize executor.handler.dispatch issued.instruction polls state (store.cellAt issued.cell) =
    dispatched at hd ⊢
  obtain ⟨dispatched, state, cell, events⟩ := dispatched
  cases dispatched with
  | pending => exact hb.append hd
  | failed e => exact (hb.append hd).append (within_singleton rfl)
  | stored => exact within_proceed (fun _ => rfl) _ _ (hb.append hd) _

/-- No step opens a span. -/
theorem within_step (h : executor.handler.OpensNoSpan) (run : Run I T N H) (store : Store I V X) :
    Within (executor.step run store).events := by
  obtain ⟨stage, stats, state⟩ := run
  cases stage with
  | ended outcome => exact List.forall_mem_nil _
  | dispatching issued next polls =>
    exact within_pollHandler h issued next polls stats state store (List.forall_mem_nil _)
  | reducing node =>
    have hb : Within (if executor.config.debug then [Event.reducing (stats.steps + 1) node.kind]
        else []) := by
      split
      · exact within_singleton rfl
      · exact List.forall_mem_nil _
    change Within (executor.reduce node stats state store).events
    unfold reduce
    cases node with
    | result value => exact hb.append (within_singleton rfl)
    | delay next =>
      dsimp only
      split
      · exact within_giveUp _ _ _ _ _ hb
      · exact within_proceed (fun _ => rfl) _ _ hb _
    | await issued next =>
      dsimp only
      split
      · exact within_giveUp _ _ _ _ _ hb
      · exact within_pollHandler h _ _ _ _ _ _ (hb.append (within_singleton rfl))

/-- Nor does a poll, however many steps it takes. -/
theorem continues_poll (h : executor.handler.OpensNoSpan) (fuel : Nat) (run : Run I T N H)
    (store : Store I V X) (reported : Array Event) :
    Continues reported (executor.poll Array.push fuel run store reported).2.2 := by
  induction fuel generalizing run store reported with
  | zero => exact .refl reported
  | succ fuel ih =>
    have hs := Event.continues_push reported (within_step h run store)
    rw [poll]
    dsimp only
    split
    · exact hs
    · exact hs.trans (ih ..)

end Executor

namespace Scenario

theorem Service.opensNoSpan (disturbances : List Disturbance) :
    (Service.handler disturbances).OpensNoSpan := by
  intro op polls service cell
  have hc (service : Service) (disturbance : Option Disturbance) :
      (complete disturbance op service cell).events = [] := by
    unfold complete
    split
    · rfl
    · split
      · rfl
      · split <;> rfl
  simp only [handler, apply_ite Polled.events, hc, ite_self]
  exact List.forall_mem_nil _

theorem continues_watch {layers : List Layer} (executor : ScenarioExecutor layers)
    (h : executor.handler.OpensNoSpan) (patience : Option Nat) (fuel waits : Nat)
    (run : ScenarioRun layers) (world : World) (events : Array Event) :
    Continues events (watch executor patience fuel waits run world events).2.2.1 := by
  induction fuel generalizing waits run world events with
  | zero => exact .refl events
  | succ fuel ih =>
    have hp := Executor.continues_poll h ample run world events
    rw [watch]
    dsimp only
    split
    · exact hp
    · split
      · exact hp
      · exact hp.trans (ih ..)

/-- The report of a job begins with the span of its run, which is the only one in it. -/
theorem Job.opens_one_span {layers : List Layer} {definitions : List Definition}
    {handler : Handler Op Value (Layered Service layers)} (h : handler.OpensNoSpan) {job : Job}
    {state : Layered Service layers} {world : World} {report : Report layers}
    (hr : (job.run definitions handler state world).1 = .ok report) :
    ∃ told, report.events.toList = .started (InstructionSet.baseName Op) :: told ∧ Within told := by
  unfold Job.run at hr
  split at hr
  · cases hr
  · rename_i config _
    generalize job.source.node definitions world = built at hr
    obtain ⟨node, world⟩ := built
    dsimp only at hr
    have hw := continues_watch ⟨job.mode.config config, (language definitions).unfolding, handler⟩ h
      (if job.mode = .blocking then none else job.patience) ample 0 (.start node state) world
      #[.started (InstructionSet.baseName Op)]
    generalize watch _ _ _ _ _ _ _ = watched at hr hw
    obtain ⟨run, world, events, waits⟩ := watched
    obtain rfl := Except.ok.inj hr
    obtain ⟨told, ht, he⟩ := hw
    exact ⟨told, he, ht⟩

/-- In a session every run has a span of its own, and only one, whatever came of the runs before. -/
theorem opens_one_span (layers : List Layer) (definitions : List Definition)
    (disturbances : List Disturbance) (entries : List (String × Int64)) (jobs : List Job)
    (report : Report layers)
    (hr : .ok report ∈ (runSession layers definitions disturbances entries jobs).1) :
    ∃ told, report.events.toList = .started (InstructionSet.baseName Op) :: told ∧ Within told := by
  have h := (Service.opensNoSpan disturbances).layered layers
  rw [runSession] at hr
  generalize Layered.start (Service.fresh entries) layers = state, (Store.fresh [] : World) = world at hr
  induction jobs generalizing state world with
  | nil => cases hr
  | cons job rest ih =>
    rw [runJobs] at hr
    obtain hr | hr := List.mem_cons.mp hr
    · exact Job.opens_one_span h hr.symm
    · exact ih _ _ hr

end Scenario

end Trampoline
