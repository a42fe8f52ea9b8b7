import Trampoline.Sequential

/-!
Descriptions that are built by nesting. Such a description does one thing after the other, or waits for
all of several branches, or for the first of them that finishes. A branch is itself a nested description.
Branches share nothing, and every request is made, polled and dropped by the branch that waits for it.
-/
namespace Trampoline

/-- A nested description. -/
inductive Nested (I V T : Type) where
  | pure (value : T)
  | fail (failure : Failure)
  /-- Has an instruction carried out and goes on with the answer. -/
  | perform (instruction : I) (next : V → Nested I V T)
  /-- Goes on with the results of all branches, in their order, once every branch has finished. -/
  | join (branches : List (Nested I V T)) (next : List (Except Failure T) → Nested I V T)
  /-- Goes on with the result of the branch that finishes first, and with its place. There is at least
  one branch. -/
  | race (first : Nested I V T) (others : List (Nested I V T))
      (next : Nat × Except Failure T → Nested I V T)

/-- A nested description that was begun. -/
inductive Activity (I V T : Type) where
  | finished (result : Except Failure T)
  /-- It waits for the answer to a request of its own. -/
  | waiting (request : Nat) (next : V → Nested I V T)
  | joining (branches : List (Activity I V T)) (next : List (Except Failure T) → Nested I V T)
  | racing (first : Activity I V T) (others : List (Activity I V T))
      (next : Nat × Except Failure T → Nested I V T)

/-- What polling the branches of a race has come to. -/
inductive Contest (I V T : Type) where
  /-- A branch has finished. The requests of the others are to be dropped. -/
  | won (winner : Nat × Except Failure T) (losers : List Nat)
  | undecided (first : Activity I V T) (others : List (Activity I V T))

/-- A branch that is about to be polled: the requests that it owns, and the poll. -/
structure Branch (I V X T : Type) where
  owned : List Nat
  poll : Script I V X (Activity I V T)

namespace Activity

variable {I V X T : Type}

mutual

/-- The requests of a description that was begun. -/
def owned : Activity I V T → List Nat
  | finished _ => []
  | waiting r _ => [r]
  | joining branches _ => ownedAll branches
  | racing first others _ => first.owned ++ ownedAll others

def ownedAll : List (Activity I V T) → List Nat
  | [] => []
  | a :: rest => a.owned ++ ownedAll rest

end

def result? : Activity I V T → Option (Except Failure T)
  | finished result => some result
  | waiting _ _ => none
  | joining _ _ => none
  | racing _ _ _ => none

/-- The results of several branches, once all of them have finished. -/
def results? : List (Activity I V T) → Option (List (Except Failure T))
  | [] => some []
  | a :: rest => a.result?.bind fun result => (results? rest).map (result :: ·)

end Activity

namespace Script

variable {I V X T : Type}

/-- Polls branches from left to right. -/
def gather : List (Branch I V X T) → Script I V X (List (Activity I V T))
  | [] => .done []
  | branch :: rest =>
    branch.poll.bind fun a => (gather rest).bind fun activities => .done (a :: activities)

/-- Polls branches from left to right until one of them has finished; the first has the given place. -/
def contest (place : Nat) (branch : Branch I V X T) :
    List (Branch I V X T) → Script I V X (Contest I V T)
  | [] =>
    branch.poll.bind fun a =>
      match a.result? with
      | some result => .done (.won (place, result) [])
      | none => .done (.undecided a [])
  | other :: rest =>
    branch.poll.bind fun a =>
      match a.result? with
      | some result => .done (.won (place, result) ((other :: rest).flatMap Branch.owned))
      | none =>
        (contest (place + 1) other rest).bind fun
          | .won winner losers => .done (.won winner (a.owned ++ losers))
          | .undecided first others => .done (.undecided a (first :: others))

/-- Goes on from what a poll of a request gave. A request is dropped once it is answered. -/
def answered (r : Nat) (next : V → Nested I V T) (goOn : V → Script I V X (Activity I V T)) :
    Option (Except CellError V) → Script I V X (Activity I V T)
  | none => .done (.waiting r next)
  | some (.error e) => (drop r).bind fun _ => .done (.finished (.error (.ofCell e)))
  | some (.ok value) => (drop r).bind fun _ => goOn value

/-- Goes on once all branches have finished. -/
def joined (next : List (Except Failure T) → Nested I V T)
    (goOn : List (Except Failure T) → Script I V X (Activity I V T))
    (activities : List (Activity I V T)) : Script I V X (Activity I V T) :=
  match Activity.results? activities with
  | some results => goOn results
  | none => .done (.joining activities next)

/-- Goes on once a branch has finished. The other branches are dropped before that. -/
def raced (next : Nat × Except Failure T → Nested I V T)
    (goOn : Nat × Except Failure T → Script I V X (Activity I V T)) :
    Contest I V T → Script I V X (Activity I V T)
  | .won winner losers => (dropAll losers).bind fun _ => goOn winner
  | .undecided first others => .done (.racing first others next)

end Script

namespace Nested

variable {I V X T : Type}

mutual

/-- The first poll of a description. -/
def start : Nested I V T → Script I V X (Activity I V T)
  | pure value => .done (.finished (.ok value))
  | fail failure => .done (.finished (.error failure))
  | perform instruction next =>
    (Script.request instruction).bind fun r =>
      (Script.poll r).bind (Script.answered r next fun value => (next value).start)
  | join branches next =>
    (Script.gather (starts branches)).bind
      (Script.joined next fun results => (next results).start)
  | race first others next =>
    (Script.contest 0 ⟨[], first.start⟩ (starts others)).bind
      (Script.raced next fun winner => (next winner).start)

def starts : List (Nested I V T) → List (Branch I V X T)
  | [] => []
  | d :: rest => ⟨[], d.start⟩ :: starts rest

end

end Nested

namespace Activity

variable {I V X T : Type}

mutual

/-- One more poll. What has finished is not polled again. -/
def poll : Activity I V T → Script I V X (Activity I V T)
  | finished result => .done (.finished result)
  | waiting r next =>
    (Script.poll r).bind (Script.answered r next fun value => (next value).start)
  | joining branches next =>
    (Script.gather (polls branches)).bind
      (Script.joined next fun results => (next results).start)
  | racing first others next =>
    (Script.contest 0 ⟨first.owned, first.poll⟩ (polls others)).bind
      (Script.raced next fun winner => (next winner).start)

def polls : List (Activity I V T) → List (Branch I V X T)
  | [] => []
  | a :: rest => ⟨a.owned, a.poll⟩ :: polls rest

end

end Activity

namespace Nested

variable {I V X T : Type}

/-- A nested description and how often it was resumed so far. -/
inductive Resumable (I V T : Type) where
  | fresh (description : Nested I V T)
  | begun (activity : Activity I V T)

/-- What a description has come to. A failure that no branch of its own has caught is its own. -/
def Resumable.progress : Activity I V T → Progress T (Resumable I V T)
  | .finished (.ok value) => .finished value
  | .finished (.error failure) => .failed failure
  | activity => .suspended (.begun activity)

def Resumable.resume : Resumable I V T → Script I V X (Progress T (Resumable I V T))
  | fresh description => description.start.bind fun activity => .done (progress activity)
  | begun activity => activity.poll.bind fun activity => .done (progress activity)

def Resumable.owned : Resumable I V T → List Nat
  | fresh _ => []
  | begun activity => activity.owned

def language : Language I V X T (Nested I V T) (Resumable I V T) where
  form description := .describe (.fresh description)
  resume := Resumable.resume
  owned := Resumable.owned

end Nested

end Trampoline
