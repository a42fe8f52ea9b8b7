import Trampoline.Program

/-!
Sequential computations, which carry out one instruction after the other. The same computation can be
written as a program in two ways: directly, where each answer leads to the program that follows, and
as a description, which requests each instruction and waits for its answer.
-/
namespace Trampoline

/-- A sequential computation. -/
inductive Sequential (I V T : Type) where
  | pure (value : T)
  | fail (failure : Failure)
  | perform (instruction : I) (next : V → Sequential I V T)

namespace Sequential

variable {I V X T : Type}

/-- A sequential computation that is described and was resumed so far. -/
inductive Resumable (I V T : Type) where
  | fresh (computation : Sequential I V T)
  /-- It waits for the answer to a request of its own. -/
  | waiting (request : Nat) (next : V → Sequential I V T)

/-- Goes on until a request has to be waited for. A request is dropped once it is answered. -/
def advance : Sequential I V T → Script I V X (Progress T (Resumable I V T))
  | pure value => .done (.finished value)
  | fail failure => .done (.failed failure)
  | perform instruction next => do
    let r ← Script.request instruction
    match ← Script.poll r with
    | none => return .suspended (.waiting r next)
    | some (.error e) =>
      Script.drop r
      return .failed (.ofCell e)
    | some (.ok value) =>
      Script.drop r
      (next value).advance

def Resumable.resume :
    Resumable I V T → Script I V X (Progress T (Resumable I V T))
  | fresh computation => computation.advance
  | waiting r next => do
    match ← Script.poll r with
    | none => return .suspended (.waiting r next)
    | some (.error e) =>
      Script.drop r
      return .failed (.ofCell e)
    | some (.ok value) =>
      Script.drop r
      (next value).advance

/-- The request that a described computation waits for. -/
def Resumable.owned : Resumable I V T → List Nat
  | fresh _ => []
  | waiting r _ => [r]

/-- A sequential computation written in one of the two ways. -/
inductive Written (I V T : Type) where
  | direct (computation : Sequential I V T)
  | described (computation : Sequential I V T)

def Written.form : Written I V T → Form I V T (Written I V T) (Resumable I V T)
  | direct (.pure value) => .pure value
  | direct (.fail failure) => .fail failure
  | direct (.perform instruction next) => .perform instruction fun value => direct (next value)
  | described computation => .describe (.fresh computation)

def language : Language I V X T (Written I V T) (Resumable I V T) where
  form := Written.form
  resume := Resumable.resume
  owned := Resumable.owned

end Sequential

end Trampoline
