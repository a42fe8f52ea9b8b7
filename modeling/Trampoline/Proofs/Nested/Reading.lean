import Trampoline.Nested
import Trampoline.Proofs.Store.View

/-!
The sequential reading of nested descriptions: the branches of a join one after the other, and of a race
the leftmost branch that needs no request, or else the first. What is left to do of a description that was
begun is read in the same way, from the answers that its requests have by then.
-/
namespace Trampoline

variable {I V X T U W : Type}

namespace Sequential

/-- Goes on with a second computation from the value of the first. -/
def bind : Sequential I V T → (T → Sequential I V U) → Sequential I V U
  | pure value, next => next value
  | fail failure, _ => fail failure
  | perform i rest, next => perform i fun value => (rest value).bind next

/-- The value of a computation that performs nothing. -/
def value? : Sequential I V T → Option T
  | pure value => some value
  | fail _ => none
  | perform _ _ => none

/-- One computation after the other, with the values of all. -/
def all : List (Sequential I V T) → Sequential I V (List T)
  | [] => pure []
  | c :: rest => c.bind fun value => (all rest).bind fun values => pure (value :: values)

/-- The leftmost computation that performs nothing: its place and its value. -/
def leftmost? (place : Nat) : List (Sequential I V T) → Option (Nat × T)
  | [] => none
  | c :: rest =>
    match c.value? with
    | some value => some (place, value)
    | none => leftmost? (place + 1) rest

/-- The leftmost computation that performs nothing, or else the first one. -/
def first (place : Nat) (c : Sequential I V T) (others : List (Sequential I V T)) :
    Sequential I V (Nat × T) :=
  match leftmost? place (c :: others) with
  | some winner => pure winner
  | none => c.bind fun value => pure (place, value)

theorem eq_pure_of_value? {c : Sequential I V T} {value : T} (h : c.value? = some value) :
    c = pure value := by
  cases c with
  | pure _ => cases h; rfl
  | fail _ => cases h
  | perform _ _ => cases h

theorem value?_bind (c : Sequential I V T) (next : T → Sequential I V U) :
    (c.bind next).value? = c.value?.bind fun value => (next value).value? := by
  cases c <;> rfl

theorem bind_assoc (c : Sequential I V T) (f : T → Sequential I V U) (g : U → Sequential I V W) :
    (c.bind f).bind g = c.bind fun value => (f value).bind g := by
  induction c with
  | pure value => rfl
  | fail failure => rfl
  | perform i next ih => exact congrArg (perform i) (funext fun value => ih value)

theorem value?_all_cons (c : Sequential I V T) (rest : List (Sequential I V T)) :
    (all (c :: rest)).value? =
      c.value?.bind fun value => (all rest).value?.map (value :: ·) := by
  rw [all, value?_bind]
  congr 1
  funext value
  rw [value?_bind]
  cases (all rest).value? <;> rfl

theorem first_of_value? {place : Nat} {c : Sequential I V T} {value : T}
    (h : c.value? = some value) (others : List (Sequential I V T)) :
    first place c others = pure (place, value) := by
  rw [first, leftmost?, h]

/-- Where the first computation performs something, only a value of another one comes before it. -/
theorem first_of_none {place : Nat} {c : Sequential I V T} (h : c.value? = none)
    (others : List (Sequential I V T)) :
    first place c others =
      match leftmost? (place + 1) others with
      | some winner => pure winner
      | none => c.bind fun value => pure (place, value) := by
  rw [first, leftmost?, h]

/-- Where none of the others has a value, the first one decides. -/
theorem first_eq_bind {place : Nat} {c : Sequential I V T} {others : List (Sequential I V T)}
    (h : leftmost? (place + 1) others = none) :
    first place c others = c.bind fun value => pure (place, value) := by
  cases hv : c.value? with
  | some value =>
    rw [first_of_value? hv, eq_pure_of_value? hv]
    rfl
  | none => rw [first_of_none hv, h]

theorem value?_first (place : Nat) (c : Sequential I V T) (others : List (Sequential I V T)) :
    (first place c others).value? = leftmost? place (c :: others) := by
  cases h : c.value? with
  | some value => rw [first_of_value? h, leftmost?, h]; rfl
  | none =>
    rw [leftmost?, h]
    dsimp only
    cases hl : leftmost? (place + 1) others with
    | some winner => rw [first_of_none h, hl]; rfl
    | none => rw [first_eq_bind hl, value?_bind, h]; rfl

/-- What needs no request wins against everything to its left that does. -/
example (i : I) (next : V → Sequential I V T) (value : T) :
    first 0 (perform i next) [pure value] = pure (1, value) :=
  rfl

end Sequential

namespace Nested

mutual

/-- The sequential reading of a description, up to its result. -/
def reading : Nested I V T → Sequential I V (Except Failure T)
  | pure value => .pure (.ok value)
  | fail failure => .pure (.error failure)
  | perform i next => .perform i fun value => (next value).reading
  | join branches next =>
    (Sequential.all (readings branches)).bind fun results => (next results).reading
  | race first others next =>
    (Sequential.first 0 first.reading (readings others)).bind fun winner => (next winner).reading

def readings : List (Nested I V T) → List (Sequential I V (Except Failure T))
  | [] => []
  | d :: rest => d.reading :: readings rest

end

/-- Ends as a description does that has come to a result. -/
def conclude : Except Failure T → Sequential I V T
  | .ok value => .pure value
  | .error failure => .fail failure

/-- The sequential computation that a nested description stands for. -/
def sequential (d : Nested I V T) : Sequential I V T :=
  d.reading.bind conclude

/-- Descriptions are taken apart down to the branches of their joins and races. -/
@[induction_eliminator]
theorem induct {motive : Nested I V T → Prop} (pure : ∀ value, motive (.pure value))
    (fail : ∀ failure, motive (.fail failure))
    (perform : ∀ i next, (∀ value, motive (next value)) → motive (.perform i next))
    (join : ∀ branches next, (∀ d ∈ branches, motive d) → (∀ results, motive (next results)) →
      motive (.join branches next))
    (race : ∀ first others next, motive first → (∀ d ∈ others, motive d) →
      (∀ winner, motive (next winner)) → motive (.race first others next)) (d : Nested I V T) :
    motive d :=
  Nested.rec (motive_1 := motive) (motive_2 := fun ds => ∀ d ∈ ds, motive d) pure fail perform join
    race (fun _ h => absurd h List.not_mem_nil) (fun _ _ h hs => List.forall_mem_cons.mpr ⟨h, hs⟩) d

end Nested

/-- What is known of a request: its instruction, or its answer once there is one. -/
def Store.due? (store : Store I V X) (r : Nat) : Option (I ⊕ V) :=
  (store.view r).map fun v =>
    match v.cell with
    | .full value => .inr value
    | .empty => .inl v.request.issued.instruction
    | .taken => .inl v.request.issued.instruction

namespace Activity

/-- Descriptions that were begun are taken apart in the same way. -/
@[induction_eliminator]
theorem induct {motive : Activity I V T → Prop} (finished : ∀ result, motive (.finished result))
    (waiting : ∀ r next, motive (.waiting r next))
    (joining : ∀ branches next, (∀ a ∈ branches, motive a) → motive (.joining branches next))
    (racing : ∀ first others next, motive first → (∀ a ∈ others, motive a) →
      motive (.racing first others next)) (a : Activity I V T) : motive a :=
  Activity.rec (motive_1 := motive) (motive_2 := fun as => ∀ a ∈ as, motive a) finished waiting joining
    racing (fun _ h => absurd h List.not_mem_nil) (fun _ _ h hs => List.forall_mem_cons.mpr ⟨h, hs⟩) a

mutual

/-- What is left to do, where `due` tells what is known of each request. -/
def rest (due : Nat → Option (I ⊕ V)) : Activity I V T → Sequential I V (Except Failure T)
  | finished result => .pure result
  | waiting r next =>
    match due r with
    | some (.inl i) => .perform i fun value => (next value).reading
    | some (.inr value) => (next value).reading
    -- A request that was never made is never answered.
    | none => .fail ⟨"", []⟩
  | joining branches next =>
    (Sequential.all (rests due branches)).bind fun results => (next results).reading
  | racing first others next =>
    (Sequential.first 0 (first.rest due) (rests due others)).bind fun winner => (next winner).reading

def rests (due : Nat → Option (I ⊕ V)) :
    List (Activity I V T) → List (Sequential I V (Except Failure T))
  | [] => []
  | a :: others => a.rest due :: rests due others

end

theorem rests_congr {due due' : Nat → Option (I ⊕ V)} {as : List (Activity I V T)}
    (h : ∀ a ∈ as, (∀ r ∈ a.owned, due r = due' r) → a.rest due = a.rest due')
    (hd : ∀ r ∈ ownedAll as, due r = due' r) : rests due as = rests due' as := by
  induction as with
  | nil => rfl
  | cons a others ih =>
    rw [ownedAll] at hd
    rw [rests, rests, h a List.mem_cons_self fun r hr => hd r (List.mem_append_left _ hr),
      ih (fun b hb => h b (List.mem_cons_of_mem a hb)) fun r hr => hd r (List.mem_append_right _ hr)]

/-- What is left to do depends on the description's own requests only. -/
theorem rest_congr {due due' : Nat → Option (I ⊕ V)} (a : Activity I V T)
    (hd : ∀ r ∈ a.owned, due r = due' r) : a.rest due = a.rest due' := by
  induction a with
  | finished result => rfl
  | waiting r next => rw [rest, rest, hd r List.mem_cons_self]
  | joining branches next ih => rw [rest, rest, rests_congr ih hd]
  | racing first others next ih ihs =>
    rw [owned] at hd
    rw [rest, rest, ih fun r hr => hd r (List.mem_append_left _ hr),
      rests_congr ihs fun r hr => hd r (List.mem_append_right _ hr)]

end Activity

end Trampoline
