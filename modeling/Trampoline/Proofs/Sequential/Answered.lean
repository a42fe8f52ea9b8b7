import Mathlib.Logic.Function.Iterate
import Trampoline.Proofs.Sequential.Performance

/-!
Handlers that answer. A call may be polled any number of times before it is answered, and the handler may
use the cell of the instruction meanwhile. Where each of several instructions is answered, carrying them
out one after the other comes to their answers.
-/
namespace Trampoline

variable {I V X T P S H : Type}

/-- A call is answered in the end, with nothing left in the cell of its instruction. -/
inductive Handler.Replies (handler : Handler I V H) (i : I) (value : V) (state' : H) :
    Nat → H → Cell V → Prop
  | now {polls : Nat} {state : H} {cell : Cell V} {events : List Event} :
      handler.poll i polls state cell = ⟨.answered value, state', .empty, events⟩ →
      Replies handler i value state' polls state cell
  | later {polls : Nat} {state state₁ : H} {cell cell₁ : Cell V} {events : List Event} :
      handler.poll i polls state cell = ⟨.pending, state₁, cell₁, events⟩ →
      Replies handler i value state' (polls + 1) state₁ cell₁ →
      Replies handler i value state' polls state cell

/-- Instructions that are called for one after the other, each with its answer, and the states of the
handler before and after that. -/
inductive Handler.Answers (handler : Handler I V H) : H → List (I × V) → H → Prop
  | nil (state : H) : Answers handler state [] state
  | cons {state state₁ state' : H} {i : I} {value : V} {rest : List (I × V)} :
      handler.Replies i value state₁ 0 state .empty → Answers handler state₁ rest state' →
      Answers handler state ((i, value) :: rest) state'

/-- Calls that are answered, one after the other. -/
def Dealing.exchanged (answers : List (I × V)) : List (Dealing I V) :=
  answers.flatMap fun (i, value) => [.call i, .answer i value]

/-! ### Performances -/

namespace Sequential

/-- Carries out instructions one after the other, and goes on with their answers. -/
def each (next : List V → Sequential I V T) : List I → Sequential I V T
  | [] => next []
  | i :: rest => perform i fun value => each (fun values => next (value :: values)) rest

namespace Performance

variable [InstructionSet I] {handler : Handler I V H} {p p' p'' : Performance I V T H}

/-- A performance comes to a certain point after some moments. -/
def Reaches (handler : Handler I V H) (p p' : Performance I V T H) : Prop :=
  ∃ n, (advance handler)^[n] p = p'

theorem Reaches.refl (p : Performance I V T H) : p.Reaches handler p :=
  ⟨0, rfl⟩

theorem Reaches.advance (h : (p.advance handler).Reaches handler p') : p.Reaches handler p' := by
  obtain ⟨n, hn⟩ := h
  exact ⟨n + 1, hn⟩

theorem Reaches.trans (h : p.Reaches handler p') (h' : p'.Reaches handler p'') :
    p.Reaches handler p'' := by
  obtain ⟨m, rfl⟩ := h
  obtain ⟨n, rfl⟩ := h'
  exact ⟨n + m, Function.iterate_add_apply _ n m p⟩

/-- From a call that is answered the performance goes on with the answer. -/
theorem reaches_poll {i : I} {value : V} {state' : H} {polls : Nat} {state : H} {cell : Cell V}
    (h : handler.Replies i value state' polls state cell) (next : V → Sequential I V T)
    (dealings : List (Dealing I V)) (answers : Nat) :
    (poll handler i polls cell next state dealings answers).Reaches handler
      ⟨.before (next value), state', dealings ++ [.answer i value], answers + 1⟩ := by
  induction h with
  | now hp =>
    rw [poll, hp]
    exact .refl _
  | later hp _ ih =>
    rw [poll, hp]
    exact .advance ih

/-- Where all instructions are answered, carrying them out one by one comes to the answers. -/
theorem reaches_each {state state' : H} {answers : List (I × V)}
    (h : handler.Answers state answers state') (next : List V → Sequential I V T)
    (dealings : List (Dealing I V)) (count : Nat) :
    Reaches handler ⟨.before (each next (answers.map Prod.fst)), state, dealings, count⟩
      ⟨.before (next (answers.map Prod.snd)), state', dealings ++ Dealing.exchanged answers,
        count + answers.length⟩ := by
  induction h generalizing next dealings count with
  | nil state =>
    rw [Dealing.exchanged, List.flatMap_nil, List.append_nil]
    exact .refl _
  | @cons state state₁ state' i value rest hr _ ih =>
    have hfirst := reaches_poll hr
      (fun value => each (fun values => next (value :: values)) (rest.map Prod.fst))
      (dealings ++ [.call i]) count
    have hd : dealings ++ Dealing.exchanged ((i, value) :: rest) =
        dealings ++ [.call i] ++ [.answer i value] ++ Dealing.exchanged rest := by
      simp [Dealing.exchanged]
    rw [hd, List.length_cons, Nat.add_comm rest.length, ← Nat.add_assoc]
    exact .advance (hfirst.trans (ih _ _ _))

end Performance

theorem performed_eq_iterate [InstructionSet I] (handler : Handler I V H) (c : Sequential I V T)
    (state : H) (n : Nat) :
    c.performed handler state n = (Performance.advance handler)^[n] ⟨.before c, state, [], 0⟩ := by
  induction n with
  | zero => rfl
  | succ n ih => rw [performed, ih, Function.iterate_succ_apply']

end Sequential

/-! ### Runs -/

namespace Scene

variable [InstructionSet I] {l : Language I V X T P S} {config : RunConfig}
  {handler : Handler I V H} {history : List (Happening I V)} {stats : RunStats} {state state' : H}
  {store : Store I V X} {issued : Issued I} {value : V}

/-- What the turns of a call lead to that is answered in the end. -/
private theorem leads_replied {polls : Nat} {cell : Cell V}
    (h : handler.Replies issued.instruction value state' polls state cell)
    (hb : issued.cell < store.cells.size) (hc : store.cellAt issued.cell = cell)
    (next : Thunk V P S) :
    (turn l config handler ⟨history, ⟨.dispatching issued next polls, stats, state⟩, store⟩ .own).Leads
      l config handler
      (settled l history issued next stats (store.putCell issued.cell .empty) (.ok value) state') := by
  induction h generalizing store with
  | now hp =>
    rw [turn_polled hb, hc, hp]
    exact ⟨0, rfl⟩
  | @later polls state cell state₁ cell₁ events hp _ ih =>
    rw [turn_polled hb, hc, hp]
    have hb' : issued.cell < (store.putCell issued.cell cell₁).cells.size := by
      simpa [Store.putCell] using hb
    have hl := ih hb' (Store.cellAt_putCell_self cell₁ hb)
    rw [Store.putCell_putCell] at hl
    exact .turn hl

/-- From a node whose instruction is answered the run goes on with the answer in the cell. -/
theorem leads_answered (hl : config.stepLimit = none)
    (h : handler.Replies issued.instruction value state' 0 state .empty)
    (hb : issued.cell < store.cells.size) (hc : store.cellAt issued.cell = .empty)
    (next : Thunk V P S) :
    let filled := store.putCell issued.cell (.full value)
    Leads l config handler ⟨history, ⟨.reducing (.await issued next), stats, state⟩, store⟩
      ⟨history ++ [.called issued] ++ .answered issued value :: l.forcing next filled,
        ⟨.built (l.force next filled).1, ⟨stats.steps + 1, stats.delays, stats.dispatches + 1⟩, state'⟩,
        (l.force next filled).2⟩ := by
  intro filled
  have he : config.exceeded? (stats.steps + 1) = none := by rw [RunConfig.exceeded?, hl]
  have hr : (turn l config handler
      ⟨history ++ [.called issued],
        ⟨.dispatching issued next 0, { stats with steps := stats.steps + 1 }, state⟩, store⟩
      .own).Leads l config handler _ := leads_replied h hb hc next
  simp only [settled, Store.cellAt_putCell_self _ hb, Store.putCell_putCell] at hr
  exact .turn (turn_await he issued next ▸ hr)

end Scene

end Trampoline
