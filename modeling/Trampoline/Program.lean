import Trampoline.Schema.Basic
import Trampoline.Script

/-!
Programs. A program is a tree of nodes that is unfolded one node at a time: it is over, has a step of
its own to take, or waits for an instruction. What comes after a node is a thunk, which builds the
next node when it is forced; since thunks are built on demand a program may go on for ever.

A program is written either directly, by saying what each answer leads to, or as a description, which
is resumed again and again, makes requests on the way, and says in the end what it has come to.
-/
namespace Trampoline

/-- A node of a program, where `N` is what builds the node after it. -/
inductive Node (I T N : Type) where
  | result (value : T)
  | delay (next : N)
  | await (issued : Issued I) (next : N)

def Node.kind {I T N : Type} : Node I T N → NodeKind
  | .result _ => .result
  | .delay _ => .delay
  | .await _ _ => .await

def Node.pending? {I T N : Type} : Node I T N → Option (Issued I)
  | .result _ => none
  | .delay _ => none
  | .await issued _ => some issued

/-- How programs are unfolded: what builds a node is forced, or thrown away with all it owns. -/
structure Unfolding (I V X T N : Type) where
  force : N → Store I V X → Except BuildError (Node I T N) × Store I V X
  discard : N → Store I V X → Store I V X

def Unfolding.discardNode {I V X T N : Type} (u : Unfolding I V X T N) :
    Node I T N → Store I V X → Store I V X
  | .result _, store => store
  | .delay next, store => u.discard next store
  | .await _ next, store => u.discard next store

/-- The ways to write a program, where `P` is the type of the programs inside it and `S` the type of
descriptions. -/
inductive Form (I V T P S : Type) where
  /-- The program is over. -/
  | pure (value : T)
  /-- The program goes on after a step that does nothing else. -/
  | delay (body : P)
  /-- The program goes on after a step that may fail. -/
  | tryDelay (body : Except Failure P)
  /-- The program fails in its next step. -/
  | fail (failure : Failure)
  /-- The program goes on from the answer to an instruction. -/
  | perform (instruction : I) (next : V → P)
  /-- The program is what a description does. -/
  | describe (start : S)

/-- What a description has come to at the end of a resumption. -/
inductive Progress (T S : Type) where
  | suspended (rest : S)
  | finished (value : T)
  | failed (failure : Failure)

/-- A way to write programs: the form of each program, what each description does when it is resumed,
and the requests that a suspended description owns, which are dropped along with it. -/
structure Language (I V X T P S : Type) where
  form : P → Form I V T P S
  resume : S → Script I V X (Progress T S)
  owned : S → List Nat

/-- What builds the node after a given one. -/
inductive Thunk (V P S : Type) where
  | build (body : P)
  | fail (failure : Failure)
  /-- Goes on from the answer in a cell. -/
  | answer (cell : Nat) (next : V → P)
  /-- Starts a description. -/
  | describe (start : S)
  /-- Resumes a description that owns the given slot. -/
  | resume (slot : Nat) (rest : S)

namespace Language

variable {I V X T P S : Type}

/-- The first node of a program. The cell of an instruction is made along with its node. -/
def node (l : Language I V X T P S) (program : P) (store : Store I V X) :
    Node I T (Thunk V P S) × Store I V X :=
  match l.form program with
  | .pure value => (.result value, store)
  | .delay body => (.delay (.build body), store)
  | .tryDelay (.ok body) => (.delay (.build body), store)
  | .tryDelay (.error failure) => (.delay (.fail failure), store)
  | .fail failure => (.delay (.fail failure), store)
  | .perform instruction next =>
    let (issued, store) := store.issue instruction
    (.await issued (.answer issued.cell next), store)
  | .describe start => (.delay (.describe start), store)

/-- Resumes a description and collects the instruction that it has put into its slot. A description
that is suspended without one waits for something that no executor can bring about. -/
def resumeAt (l : Language I V X T P S) (slot : Nat) (rest : S) (store : Store I V X) :
    Except BuildError (Node I T (Thunk V P S)) × Store I V X :=
  let (progress, store) := (l.resume rest).run slot store
  let (collected, store) := store.collect slot
  match progress with
  | .finished value => (.ok (.result value), store)
  | .failed failure => (.error (.described failure), store)
  | .suspended rest =>
    match collected with
    | some issued => (.ok (.await issued (.resume slot rest)), store)
    | none => (.error .foreignSuspension, store.dropAll (l.owned rest))

def force (l : Language I V X T P S) (thunk : Thunk V P S) (store : Store I V X) :
    Except BuildError (Node I T (Thunk V P S)) × Store I V X :=
  match thunk with
  | .build body =>
    let (node, store) := l.node body store
    (.ok node, store)
  | .fail failure => (.error (.described failure), store)
  | .answer cell next =>
    let (answer, store) := store.takeCell cell
    match answer with
    | .error e => (.error (.cell e), store)
    | .ok value =>
      let (node, store) := l.node (next value) store
      (.ok node, store)
  | .describe start =>
    let (slot, store) := store.newSlot
    l.resumeAt slot start store
  | .resume slot rest => l.resumeAt slot rest store

/-- Throws a thunk away; a suspended description drops its requests. -/
def discard (l : Language I V X T P S) (thunk : Thunk V P S) (store : Store I V X) :
    Store I V X :=
  match thunk with
  | .resume _ rest => store.dropAll (l.owned rest)
  | .build _ => store
  | .fail _ => store
  | .answer _ _ => store
  | .describe _ => store

def unfolding (l : Language I V X T P S) : Unfolding I V X T (Thunk V P S) where
  force := l.force
  discard := l.discard

end Language

end Trampoline
