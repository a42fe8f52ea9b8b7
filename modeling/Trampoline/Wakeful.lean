import Trampoline.Nested

/-!
Joins that are driven by wakers. Each branch is polled once in the beginning, and after that only if its
waker was invoked since its last poll. A waker puts the place of its branch into a queue, which is what the
description shares with others. Requests are polled without a waker, so nothing that becomes of them gets
into the queue.
-/
namespace Trampoline

variable {I V X T : Type}

namespace Activity

/-- The branches of a join from a given place on. Those that are not woken are left as they are. -/
def attend (woken : Nat → Bool) (place : Nat) : List (Activity I V T) → List (Branch I V X T)
  | [] => []
  | a :: rest =>
    ⟨a.owned, if woken place then a.poll else .done a⟩ :: attend woken (place + 1) rest

/-- One more poll. A join polls the branches that are woken. -/
def pollWoken (woken : Nat → Bool) : Activity I V T → Script I V X (Activity I V T)
  | joining branches next =>
    (Script.gather (attend woken 0 branches)).bind
      (Script.joined next fun results => (next results).start)
  | activity => activity.poll

theorem attend_every (place : Nat) (branches : List (Activity I V T)) :
    attend (X := X) (fun _ => true) place branches = polls branches := by
  induction branches generalizing place with
  | nil => rfl
  | cons a rest ih => rw [attend, polls, ih, if_pos rfl]

/-- Where all branches are woken, nothing tells the two kinds of joins apart. -/
theorem pollWoken_every (a : Activity I V T) : a.pollWoken (X := X) (fun _ => true) = a.poll := by
  cases a with
  | joining branches next => rw [pollWoken, poll, attend_every]
  | finished _ => rfl
  | waiting _ _ => rfl
  | racing _ _ _ => rfl

end Activity

namespace Nested

/-- A resumption in which the queue is emptied and the branches in it are polled. -/
def Resumable.resumeWoken : Resumable I V T → Script I V (List Nat) (Progress T (Resumable I V T))
  | fresh description => (fresh description).resume
  | begun activity =>
    Script.look.bind fun queue =>
      (Script.share []).bind fun _ =>
        (activity.pollWoken queue.contains).bind fun activity => .done (progress activity)

/-- Nested descriptions whose joins are driven by wakers. -/
def wakeful : Language I V (List Nat) T (Nested I V T) (Resumable I V T) where
  form description := .describe (.fresh description)
  resume := Resumable.resumeWoken
  owned := Resumable.owned

/-- Goes on with the answers that the branches of a join have come to, or with the first failure. -/
def gathered (results : List (Except Failure (List V))) : Nested I V (List V) :=
  match results.mapM id with
  | .ok answers => .pure answers.flatten
  | .error failure => .fail failure

/-- Requests all of the instructions at once, and waits for their answers. -/
def together (instructions : List I) : Nested I V (List V) :=
  .join (instructions.map fun i => .perform i fun value => .pure [value]) gathered

end Nested

end Trampoline
