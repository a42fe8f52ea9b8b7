import Mathlib.Data.List.Induction
import Trampoline.Booking.Basic

/-!
The cell of an instruction over its whole history. Whatever is done with the cell, and however often the
instruction is dispatched, what is answered depends on two things in the past only: the first value that
was offered to the cell, and whether that value was handed out since.
-/
namespace Trampoline

variable {I V H : Type} {i : I}

/-- What a dispatch makes of the outcome of its call. -/
def Cell.receive (instruction : String) (outcome : Except Failure V) (cell : Cell V) :
    Except RunError Unit × Cell V :=
  match outcome with
  | .error failure => (.error (.handler instruction failure), cell)
  | .ok value =>
    let (stored, cell) := cell.store value
    (stored.mapError (.cell instruction), cell)

namespace Handler

/-- Polls a call until it is over, at most so many times: what it comes to, and the state and the cell
that it leaves. -/
def callOut (handler : Handler I V H) (i : I) :
    (fuel polls : Nat) → H → Cell V → Option (Except Failure V × H × Cell V)
  | 0, _, _, _ => none
  | fuel + 1, polls, state, cell =>
    match handler.poll i polls state cell with
    | ⟨.pending, state, cell, _⟩ => handler.callOut i fuel (polls + 1) state cell
    | ⟨.answered value, state, cell, _⟩ => some (.ok value, state, cell)
    | ⟨.refused failure, state, cell, _⟩ => some (.error failure, state, cell)

variable [InstructionSet I]

/-- Polls a dispatch until it is over, at most so many times. -/
def dispatchOut (handler : Handler I V H) (i : I) :
    (fuel polls : Nat) → H → Cell V → Option (Except RunError Unit × H × Cell V)
  | 0, _, _, _ => none
  | fuel + 1, polls, state, cell =>
    match handler.dispatch i polls state cell with
    | (.pending, state, cell, _) => handler.dispatchOut i fuel (polls + 1) state cell
    | (.stored, state, cell, _) => some (.ok (), state, cell)
    | (.failed e, state, cell, _) => some (.error e, state, cell)

/-- A dispatch is one call of the handler, and its outcome goes to the cell. -/
theorem dispatchOut_eq (handler : Handler I V H) (i : I) (fuel polls : Nat) (state : H)
    (cell : Cell V) :
    handler.dispatchOut i fuel polls state cell =
      (handler.callOut i fuel polls state cell).map fun (outcome, state, cell) =>
        let (answer, cell) := cell.receive (InstructionSet.name i) outcome
        (answer, state, cell) := by
  induction fuel generalizing polls state cell with
  | zero => rfl
  | succ fuel ih =>
    rw [dispatchOut, callOut, dispatch]
    generalize handler.poll i polls state cell = polled
    obtain ⟨reply, state, cell, events⟩ := polled
    cases reply with
    | pending => exact ih (polls + 1) state cell
    | refused failure => rfl
    | answered value => cases cell <;> rfl

end Handler

/-- A call that a handler carries through to its end in some state, without touching the cell. -/
structure Visit (V : Type) (i : I) where
  {H : Type}
  handler : Handler I V H
  state : H
  /-- How often the call is polled at most. -/
  polls : Nat
  outcome : Except Failure V
  /-- The state that the call leaves. -/
  left : H
  settles : ∀ cell, handler.callOut i polls 0 state cell = some (outcome, left, cell)

/-- Any outcome may come of a call: a handler that counts its calls answers at once. -/
def Visit.counting (i : I) (outcome : Except Failure V) (calls : Nat) : Visit V i where
  handler := ⟨fun _ _ calls cell =>
    match outcome with
    | .ok value => ⟨.answered value, calls + 1, cell, []⟩
    | .error failure => ⟨.refused failure, calls + 1, cell, []⟩⟩
  state := calls
  polls := 1
  outcome := outcome
  left := calls + 1
  settles _ := by cases outcome <;> rfl

namespace Cell

/-- What is done with the cell of an instruction. -/
inductive Use (V : Type) (i : I) where
  | store (value : V)
  | fetch
  | ask
  /-- The instruction is dispatched. -/
  | dispatch (visit : Visit V i)

namespace Use

/-- What is answered. A dispatch leaves a handler behind along with its answer, if it ends. -/
@[reducible] def Answer : Use V i → Type
  | store _ => Except CellError Unit
  | fetch => Except CellError V
  | ask => Bool
  | dispatch visit => Option (Except RunError Unit × visit.H)

def Failed : (use : Use V i) → use.Answer → Prop
  | store _, answer => ∃ e, answer = .error e
  | fetch, answer => ∃ e, answer = .error e
  | ask, _ => False
  | dispatch _, answer => ∃ e state, answer = some (.error e, state)

/-- The value that is offered to the cell. -/
def offer? : Use V i → Option V
  | store value => some value
  | dispatch visit => visit.outcome.toOption
  | fetch => none
  | ask => none

variable [InstructionSet I]

def apply : (use : Use V i) → Cell V → use.Answer × Cell V
  | store value, cell => cell.store value
  | fetch, cell => cell.fetch
  | ask, cell => (cell.isSet, cell)
  | dispatch visit, cell =>
    match visit.handler.dispatchOut i visit.polls 0 visit.state cell with
    | some (answer, state, cell) => (some (answer, state), cell)
    | none => (none, cell)

/-- A dispatch ends, after one call of its handler. -/
theorem apply_dispatch (visit : Visit V i) (cell : Cell V) :
    (dispatch visit).apply cell =
      (some ((cell.receive (InstructionSet.name i) visit.outcome).1, visit.left),
        (cell.receive (InstructionSet.name i) visit.outcome).2) := by
  simp only [apply, Handler.dispatchOut_eq, visit.settles, Option.map_some]

/-- What is answered with a failure leaves the cell as it was. -/
theorem cell_of_failed {use : Use V i} {cell : Cell V} (h : use.Failed (use.apply cell).1) :
    (use.apply cell).2 = cell := by
  cases use with
  | ask => rfl
  | store value =>
    cases cell with
    | empty =>
      obtain ⟨e, he⟩ := h
      cases he
    | full _ => rfl
    | taken => rfl
  | fetch =>
    cases cell with
    | full _ =>
      obtain ⟨e, he⟩ := h
      cases he
    | empty => rfl
    | taken => rfl
  | dispatch visit =>
    obtain ⟨e, state, he⟩ := h
    rw [apply_dispatch] at he ⊢
    cases ho : visit.outcome with
    | error failure => rfl
    | ok value =>
      rw [ho] at he
      cases cell with
      | empty => cases he
      | full _ => rfl
      | taken => rfl

end Use

/-! ### Histories -/

/-- The first value that was offered to a cell. -/
def first? (uses : List (Use V i)) : Option V :=
  uses.findSome? Use.offer?

/-- The first value was handed out: somebody has fetched it after it was offered. -/
def Spent (uses : List (Use V i)) : Prop :=
  ∃ before later, uses = before ++ .fetch :: later ∧ (first? before).isSome

theorem first?_concat (uses : List (Use V i)) (use : Use V i) :
    first? (uses ++ [use]) = (first? uses).or use.offer? := by
  rw [first?, List.findSome?_append]
  cases ho : use.offer? <;> simp [first?, ho]

theorem spent_concat (uses : List (Use V i)) (use : Use V i) :
    Spent (uses ++ [use]) ↔ Spent uses ∨ use = .fetch ∧ (first? uses).isSome := by
  constructor
  · rintro ⟨before, later, h, hf⟩
    cases later using List.reverseRecOn with
    | nil =>
      obtain ⟨rfl, hu⟩ := List.append_inj' h rfl
      exact .inr ⟨List.singleton_inj.mp hu, hf⟩
    | append_singleton later last =>
      rw [← List.cons_append, ← List.append_assoc] at h
      obtain ⟨rfl, -⟩ := List.append_inj' h rfl
      exact .inl ⟨before, later, rfl, hf⟩
  · rintro (⟨before, later, rfl, hf⟩ | ⟨rfl, hf⟩)
    · exact ⟨before, later ++ [use], List.append_assoc .., hf⟩
    · exact ⟨uses, [], rfl, hf⟩

theorem Spent.isSome {uses : List (Use V i)} (h : Spent uses) : (first? uses).isSome := by
  obtain ⟨before, later, rfl, hf⟩ := h
  rw [first?, List.findSome?_append, Option.isSome_or]
  exact Bool.or_eq_true _ _ ▸ .inl hf

theorem not_spent_of_none {uses : List (Use V i)} (h : first? uses = none) : ¬ Spent uses := by
  intro hs
  have hf := hs.isSome
  rw [h] at hf
  cases hf

/-- A cell tells of its history whether a value was offered, which one was the first, and whether it was
handed out. -/
inductive Tells (uses : List (Use V i)) : Cell V → Prop
  | empty : first? uses = none → Tells uses .empty
  | full {value : V} : first? uses = some value → ¬ Spent uses → Tells uses (.full value)
  | taken : Spent uses → Tells uses .taken

namespace Tells

variable {uses : List (Use V i)} {use : Use V i} {cell : Cell V}

/-- What neither offers nor fetches anything leaves the cell as it was. -/
theorem keep (h : Tells uses cell) (ho : use.offer? = none) (hf : use ≠ .fetch) :
    Tells (uses ++ [use]) cell := by
  have hs : Spent (uses ++ [use]) ↔ Spent uses := by simp [spent_concat, hf]
  have h1 : first? (uses ++ [use]) = first? uses := by rw [first?_concat, ho, Option.or_none]
  cases h with
  | empty hn => exact .empty (h1.trans hn)
  | full hv hn => exact .full (h1.trans hv) (hs.not.mpr hn)
  | taken ht => exact .taken (hs.mpr ht)

/-- Only the first value that is offered is stored. -/
theorem store (h : Tells uses cell) {value : V} (ho : use.offer? = some value) :
    Tells (uses ++ [use]) (cell.store value).2 := by
  have hf : use ≠ .fetch := by
    rintro rfl
    cases ho
  have hs : Spent (uses ++ [use]) ↔ Spent uses := by simp [spent_concat, hf]
  have h1 : first? (uses ++ [use]) = (first? uses).or (some value) := by rw [first?_concat, ho]
  cases h with
  | empty hn =>
    rw [hn, Option.none_or] at h1
    exact .full h1 (hs.not.mpr (not_spent_of_none hn))
  | full hv hn =>
    rw [hv, Option.some_or] at h1
    exact .full h1 (hs.not.mpr hn)
  | taken ht => exact .taken (hs.mpr ht)

/-- The stored value is handed out, once. -/
theorem fetch (h : Tells uses cell) : Tells (uses ++ [.fetch]) cell.fetch.2 := by
  have h1 : first? (uses ++ [.fetch]) = first? uses := by
    rw [first?_concat]
    exact Option.or_none
  cases h with
  | empty hn => exact .empty (h1.trans hn)
  | full hv _ => exact .taken ((spent_concat ..).mpr (.inr ⟨rfl, hv ▸ rfl⟩))
  | taken ht => exact .taken ((spent_concat ..).mpr (.inl ht))

theorem store_answer (h : Tells uses cell) (value : V) :
    (cell.store value).1 = if (first? uses).isSome then .error .alreadySet else .ok () := by
  cases h with
  | empty hn => rw [hn]; rfl
  | full hv _ => rw [hv]; rfl
  | taken hs => rw [if_pos hs.isSome]; rfl

theorem fetch_unset (h : Tells uses cell) (hn : first? uses = none) :
    cell.fetch.1 = .error .unset := by
  cases h with
  | empty _ => rfl
  | full hv _ => cases hn.symm.trans hv
  | taken hs => exact absurd hs (not_spent_of_none hn)

theorem fetch_first (h : Tells uses cell) {value : V} (hv : first? uses = some value)
    (hs : ¬ Spent uses) : cell.fetch.1 = .ok value := by
  cases h with
  | empty hn => cases hn.symm.trans hv
  | full hv' _ =>
    cases hv.symm.trans hv'
    rfl
  | taken hs' => exact absurd hs' hs

theorem fetch_again (h : Tells uses cell) (hs : Spent uses) :
    cell.fetch.1 = .error .alreadyTaken := by
  cases h with
  | empty hn => exact absurd hs (not_spent_of_none hn)
  | full _ hn => exact absurd hs hn
  | taken _ => rfl

theorem isSet (h : Tells uses cell) : cell.isSet = (first? uses).isSome := by
  cases h with
  | empty hn => rw [hn]; rfl
  | full hv _ => rw [hv]; rfl
  | taken hs => rw [hs.isSome]; rfl

end Tells

variable [InstructionSet I]

/-- The cell of an instruction after all this was done with it. -/
def after (uses : List (Use V i)) : Cell V :=
  uses.foldl (fun cell use => (use.apply cell).2) .empty

theorem after_concat (uses : List (Use V i)) (use : Use V i) :
    after (uses ++ [use]) = (use.apply (after uses)).2 := by
  rw [after, List.foldl_append]
  rfl

theorem Tells.apply {uses : List (Use V i)} {cell : Cell V} (h : Tells uses cell) (use : Use V i) :
    Tells (uses ++ [use]) (use.apply cell).2 := by
  cases use with
  | store value => exact h.store rfl
  | fetch => exact h.fetch
  | ask => exact h.keep rfl nofun
  | dispatch visit =>
    rw [Use.apply_dispatch]
    cases ho : visit.outcome with
    | error failure =>
      refine h.keep ?_ nofun
      rw [Use.offer?, ho]
      rfl
    | ok value =>
      refine h.store ?_
      rw [Use.offer?, ho]
      rfl

theorem tells_after (uses : List (Use V i)) : Tells uses (after uses) := by
  induction uses using List.reverseRecOn with
  | nil => exact .empty rfl
  | append_singleton uses use ih =>
    rw [after_concat]
    exact ih.apply use

/-- What is answered next after all this was done with a cell, and what becomes of the cell. -/
structure WrittenOnce (uses : List (Use V i)) : Prop where
  store : ∀ value, ((Use.store value : Use V i).apply (after uses)).1 =
    if (first? uses).isSome then .error .alreadySet else .ok ()
  unset : first? uses = none → ((Use.fetch : Use V i).apply (after uses)).1 = .error .unset
  handed : ∀ value, first? uses = some value → ¬ Spent uses →
    ((Use.fetch : Use V i).apply (after uses)).1 = .ok value
  alreadyTaken : Spent uses → ((Use.fetch : Use V i).apply (after uses)).1 = .error .alreadyTaken
  ask : ((Use.ask : Use V i).apply (after uses)).1 = (first? uses).isSome
  /-- However a dispatch ends, its handler is called once. -/
  refused : ∀ (visit : Visit V i) failure, visit.outcome = .error failure →
    ((Use.dispatch visit).apply (after uses)).1 =
      some (.error (.handler (InstructionSet.name i) failure), visit.left)
  dispatched : ∀ (visit : Visit V i) value, visit.outcome = .ok value →
    ((Use.dispatch visit).apply (after uses)).1 =
      some (if (first? uses).isSome then .error (.cell (InstructionSet.name i) .alreadySet) else .ok (),
        visit.left)
  /-- What fails leaves the cell as it was, so that a dispatch can be tried again. -/
  unchanged : ∀ use : Use V i, use.Failed (use.apply (after uses)).1 →
    after (uses ++ [use]) = after uses
  content : Tells uses (after uses)

/-- A cell is written once and read once, in whatever order it is used. -/
theorem written_once (uses : List (Use V i)) : WrittenOnce uses where
  store := (tells_after uses).store_answer
  unset := (tells_after uses).fetch_unset
  handed _ := (tells_after uses).fetch_first
  alreadyTaken := (tells_after uses).fetch_again
  ask := (tells_after uses).isSet
  refused visit failure ho := by
    rw [Use.apply_dispatch, ho]
    rfl
  dispatched visit value ho := by
    rw [Use.apply_dispatch, ho]
    dsimp only [receive]
    rw [(tells_after uses).store_answer value]
    split <;> rfl
  unchanged use hf := by rw [after_concat, Use.cell_of_failed hf]
  content := tells_after uses

open Booking in
/-- A dispatch fails and is tried again; the next one comes too late, but its handler is called. -/
example : let visit := Visit.counting (V := Answer) (Instruction.read "2026-05-01")
    ((Use.dispatch (visit (.ok (.found [])) 2)).apply (after
      [.dispatch (visit (.error ⟨"closed", []⟩) 0), .dispatch (visit (.ok (.found [])) 1)])).1 =
        some (.error (.cell "ReadReservations" .alreadySet), (3 : Nat)) :=
  rfl

end Cell

end Trampoline
