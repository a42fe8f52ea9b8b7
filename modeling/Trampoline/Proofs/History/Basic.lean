import Trampoline.Proofs.Store.Fields
import Trampoline.Run.Basic

/-!
What happens while programs run: which requests are made, polled and dropped, what is in the slot at the
end of a resumption, and which instructions go to the handler. Everything here is told from the very
states that a run goes through.
-/
namespace Trampoline

/-- One thing that happens to requests or instructions. -/
inductive Happening (I V : Type) where
  /-- A description begins; its slot has this number. -/
  | opened (slot : Nat)
  | requested (r : Nat)
  | polled (r : Nat) (answer : Option (Except CellError V))
  /-- A request that is polled puts its instruction into the slot. -/
  | issued (slot r : Nat)
  | dropped (r : Nat)
  /-- A request that is dropped takes its instruction out of the slot. -/
  | withdrawn (slot r : Nat)
  /-- A resumption is over, and the slot was emptied. -/
  | collected (slot : Nat) (suspended : Bool) (found : Option (Issued I))
  /-- The handler is called for an instruction. -/
  | called (issued : Issued I)
  | answered (issued : Issued I) (value : V)
  | refused (issued : Issued I) (failure : Failure)

variable {I V X α T P S H : Type}

namespace Store

/-- Whether a request exists and was not dropped. -/
def alive (store : Store I V X) (r : Nat) : Bool :=
  match store.requests[r]? with
  | some q => !q.dropped
  | none => false

/-- The slot that a poll of a request takes. -/
def issues? (store : Store I V X) (r : Nat) : Option Nat :=
  match store.requests[r]? with
  | some q =>
    if q.dropped = false ∧ q.instruction.isSome ∧ (store.slotAt q.slot).pending.isNone then
      some q.slot
    else none
  | none => none

/-- The slot that a drop of a request frees. -/
def withdraws? (store : Store I V X) (r : Nat) : Option Nat :=
  match store.requests[r]? with
  | some q => if store.holding q then some q.slot else none
  | none => none

/-- A poll. Requests that do not exist, or do not exist any more, cannot be polled. -/
def polling (store : Store I V X) (r : Nat) : List (Happening I V) :=
  if store.alive r then
    .polled r (store.poll r).1 :: (store.issues? r).toList.map fun slot => .issued slot r
  else []

/-- A drop. Nothing can be dropped twice. -/
def dropping (store : Store I V X) (r : Nat) : List (Happening I V) :=
  if store.alive r then
    .dropped r :: (store.withdraws? r).toList.map fun slot => .withdrawn slot r
  else []

/-- Several drops, one after the other. -/
def droppings (store : Store I V X) : List Nat → List (Happening I V)
  | [] => []
  | r :: rest => store.dropping r ++ (store.drop r).droppings rest

/-- An action of a description. -/
def acting (store : Store I V X) : Action I X → List (Happening I V)
  | .request _ => [.requested store.requests.size]
  | .poll r => store.polling r
  | .drop r => store.dropping r
  | .look => []
  | .share _ => []

end Store

/-- The actions of a script. -/
def Script.happenings (slot : Nat) : Script I V X α → Store I V X → List (Happening I V)
  | .done _, _ => []
  | .act action next, store =>
    store.acting action ++
      (next (store.act slot action).1).happenings slot (store.act slot action).2

namespace Language

/-- A resumption. A description that waits for no instruction drops its requests in the end. -/
def resumption (l : Language I V X T P S) (slot : Nat) (rest : S) (store : Store I V X) :
    List (Happening I V) :=
  let (progress, resumed) := (l.resume rest).run slot store
  let (found, collected) := resumed.collect slot
  (l.resume rest).happenings slot store ++
    match progress with
    | .finished _ => [.collected slot false found]
    | .failed _ => [.collected slot false found]
    | .suspended rest =>
      match found with
      | some _ => [.collected slot true found]
      | none => .collected slot true none :: collected.droppings (l.owned rest)

/-- The building of a node. -/
def forcing (l : Language I V X T P S) (thunk : Thunk V P S) (store : Store I V X) :
    List (Happening I V) :=
  match thunk with
  | .build _ => []
  | .fail _ => []
  | .answer _ _ => []
  | .describe start =>
    .opened store.slots.size :: l.resumption store.slots.size start store.newSlot.2
  | .resume slot rest => l.resumption slot rest store

/-- A thunk that is thrown away. -/
def discarding (l : Language I V X T P S) (thunk : Thunk V P S) (store : Store I V X) :
    List (Happening I V) :=
  match thunk with
  | .resume _ rest => store.droppings (l.owned rest)
  | .build _ => []
  | .fail _ => []
  | .answer _ _ => []
  | .describe _ => []

/-- A poll of the handler, and what follows once the call is over. -/
def dispatching (l : Language I V X T P S) (handler : Handler I V H) (issued : Issued I)
    (next : Thunk V P S) (polls : Nat) (state : H) (store : Store I V X) : List (Happening I V) :=
  let polled := handler.poll issued.instruction polls state (store.cellAt issued.cell)
  match polled.reply with
  | .pending => []
  | .refused failure =>
    .refused issued failure :: l.discarding next (store.putCell issued.cell polled.cell)
  | .answered value =>
    .answered issued value ::
      match polled.cell.set value with
      | .ok cell => l.forcing next (store.putCell issued.cell cell)
      | .error _ => l.discarding next (store.putCell issued.cell polled.cell)

/-- One step of a run. -/
def stepping (l : Language I V X T P S) (config : RunConfig) (handler : Handler I V H)
    (run : Run I T (Thunk V P S) H) (store : Store I V X) : List (Happening I V) :=
  match run.stage with
  | .ended _ => []
  | .reducing (.result _) => []
  | .reducing (.delay next) =>
    match config.exceeded? (run.stats.steps + 1) with
    | some _ => l.discarding next store
    | none => l.forcing next store
  | .reducing (.await issued next) =>
    match config.exceeded? (run.stats.steps + 1) with
    | some _ => l.discarding next store
    | none => .called issued :: l.dispatching handler issued next 0 run.handler store
  | .dispatching issued next polls => l.dispatching handler issued next polls run.handler store

/-- The executor of written programs. -/
def executor (l : Language I V X T P S) (config : RunConfig) (handler : Handler I V H) :
    Executor I V X T (Thunk V P S) H :=
  ⟨config, l.unfolding, handler⟩

end Language

/-- What others can do to a store between two steps of a run. -/
inductive Deed (I V X : Type) where
  /-- The action of a description that owns the given slot. -/
  | act (slot : Nat) (action : Action I X)
  | newSlot
  | issue (instruction : I)
  | collect (slot : Nat)
  | putCell (cell : Nat) (content : Cell V)

namespace Deed

/-- Only a description with a slot can act. -/
def apply (store : Store I V X) : Deed I V X → Store I V X
  | act slot action => if slot < store.slots.size then (store.act slot action).2 else store
  | newSlot => store.newSlot.2
  | issue i => (store.issue i).2
  | collect slot => (store.collect slot).2
  | putCell cell content => store.putCell cell content

def happenings (store : Store I V X) : Deed I V X → List (Happening I V)
  | act slot action => if slot < store.slots.size then store.acting action else []
  | newSlot => []
  | issue _ => []
  | collect _ => []
  | putCell _ _ => []

end Deed

/-- A turn is taken by the run, or by somebody else. -/
inductive Turn (I V X : Type) where
  | own
  | other (deed : Deed I V X)

/-- A run with the store it works on, and all that has happened so far. -/
structure Scene (I V X T P S H : Type) where
  history : List (Happening I V)
  run : Run I T (Thunk V P S) H
  store : Store I V X

namespace Scene

/-- A program that has not begun to run. -/
def start (l : Language I V X T P S) (program : P) (state : H) (store : Store I V X) :
    Scene I V X T P S H :=
  ⟨[], .start (l.node program store).1 state, (l.node program store).2⟩

variable [InstructionSet I]

def turn (l : Language I V X T P S) (config : RunConfig) (handler : Handler I V H)
    (scene : Scene I V X T P S H) : Turn I V X → Scene I V X T P S H
  | .own =>
    let stepped := (l.executor config handler).step scene.run scene.store
    ⟨scene.history ++ l.stepping config handler scene.run scene.store, stepped.run, stepped.store⟩
  | .other deed =>
    ⟨scene.history ++ deed.happenings scene.store, scene.run, deed.apply scene.store⟩

/-- Any number of turns. -/
def play (l : Language I V X T P S) (config : RunConfig) (handler : Handler I V H)
    (scene : Scene I V X T P S H) (turns : List (Turn I V X)) : Scene I V X T P S H :=
  turns.foldl (turn l config handler) scene

/-- So many turns of the run alone. -/
def alone (l : Language I V X T P S) (config : RunConfig) (handler : Handler I V H)
    (scene : Scene I V X T P S H) (n : Nat) : Scene I V X T P S H :=
  scene.play l config handler (List.replicate n .own)

end Scene

end Trampoline
