import Trampoline.Proofs.Nested.Reading
import Trampoline.Proofs.Sequential.Resumptions

/-!
What a poll of a nested description leaves behind. Where it finds the slot taken, all its requests stay
out of it; where it finds the slot free, and there is something left to do, the very request that is next
in the sequential reading is in the slot afterwards. This is shown for branches one by one, for all
branches of a join, and for the branches of a race.
-/
namespace Trampoline

variable {I V X T A σ : Type}

open Happening (Untroubled untroubled_append)

/-- A request of a description whose instruction is not in the slot. -/
def Store.Quiet (store : Store I V X) (k r : Nat) : Prop :=
  (∃ i, store.Waits k r i) ∨ ∃ value, store.Answered k r value

/-- How to look at what a poll leaves behind: the requests in there, the value if it has come to one,
and what is left to do. -/
structure Outlook (I V σ A : Type) where
  owned : σ → List Nat
  value? : σ → Option A
  rest : (Nat → Option (I ⊕ V)) → σ → Sequential I V A

def Activity.outlook : Outlook I V (Activity I V T) (Except Failure T) :=
  ⟨owned, result?, rest⟩

/-- The branches of a join. -/
def Activity.outlooks : Outlook I V (List (Activity I V T)) (List (Except Failure T)) :=
  ⟨ownedAll, results?, fun due as => .all (rests due as)⟩

/-- The branches of a race, of which the first has the given place. -/
def Contest.outlook (place : Nat) : Outlook I V (Contest I V T) (Nat × Except Failure T) where
  owned
    | won _ losers => losers
    | undecided first others => first.owned ++ Activity.ownedAll others
  value?
    | won winner _ => some winner
    | undecided _ _ => none
  rest due
    | won winner _ => .pure winner
    | undecided first others => .first place (first.rest due) (Activity.rests due others)

/-- The instruction that comes next is in the slot, put there by a request, and the answer to this
request is all that is needed to go on. -/
structure Heads (o : Outlook I V σ A) (k : Nat) (left : σ × Store I V X) (i : I)
    (next : V → Sequential I V A) (r : Nat) : Prop where
  mem : r ∈ o.owned left.1
  holds : left.2.Holds k r i
  quiet : ∀ s ∈ o.owned left.1, s ≠ r → left.2.Quiet k s
  rest : ∀ {due : Nat → Option (I ⊕ V)} {value : V},
    (∀ s ∈ o.owned left.1, s ≠ r → due s = left.2.due? s) → due r = some (.inr value) →
      o.rest due left.1 = next value

/-- A poll that touches no requests but the given ones, and leaves the second ones behind. If the slot was
taken their instructions are not in there. -/
structure Tidy (k : Nat) (store : Store I V X) (mine : List Nat) (events : List (Happening I V))
    (left : List Nat) (store' : Store I V X) : Prop where
  untroubled : Untroubled events
  frame : Store.Frame mine store store'
  owned : ∀ r ∈ left, r ∈ mine ∨ store.requests.size ≤ r
  lt : ∀ r ∈ left, r < store'.requests.size
  nodup : left.Nodup
  behind : store.taken k = true → ∀ r ∈ left, store'.Quiet k r

/-- What comes of a poll before which `c` was left to do. -/
structure Went (o : Outlook I V σ A) (k : Nat) (store : Store I V X) (mine : List Nat)
    (events : List (Happening I V)) (left : σ × Store I V X) (c : Sequential I V A) : Prop
    extends Tidy k store mine events (o.owned left.1) left.2 where
  value : o.value? left.1 = c.value?
  rest : o.rest left.2.due? left.1 = c
  /-- What has come to a value leaves the slot free, unless a request of its own is in there that is
  about to be dropped. -/
  freed : store.taken k = false → c.value?.isSome → left.2.taken k = false ∨
    ∃ r ∈ o.owned left.1, ∃ i, left.2.Holds k r i
  head : store.taken k = false → c.value? = none →
    ∃ i next r, c = .perform i next ∧ Heads o k left i next r

/-- What comes of a script, with the requests that it may touch. -/
def Script.Goes (o : Outlook I V σ A) (k : Nat) (store : Store I V X) (mine : List Nat)
    (script : Script I V X σ) (c : Sequential I V A) : Prop :=
  Went o k store mine (script.happenings k store) (script.run k store) c

namespace Store

variable {store store' : Store I V X} {k r : Nat}

theorem Quiet.exists_view (h : store.Quiet k r) : ∃ v, store.view r = some v ∧ v.held = false := by
  obtain ⟨i, c, hv⟩ | ⟨value, issued, t, hv⟩ := h
  · exact ⟨_, hv, rfl⟩
  · exact ⟨_, hv, rfl⟩

theorem Quiet.lt (h : store.Quiet k r) : r < store.requests.size := by
  obtain ⟨v, hv, _⟩ := h.exists_view
  exact view_lt hv

theorem Quiet.held (h : store.Quiet k r) (v : View I V) (hv : store.view r = some v) :
    v.held = false := by
  obtain ⟨w, hw, hh⟩ := h.exists_view
  obtain rfl := Option.some.inj (hw.symm.trans hv)
  exact hh

theorem Quiet.congr (h : store.Quiet k r) (hv : store'.view r = store.view r) :
    store'.Quiet k r := by
  unfold Quiet Waits Answered at h ⊢
  rwa [hv]

theorem due?_congr (hv : store'.view r = store.view r) : store'.due? r = store.due? r := by
  rw [due?, due?, hv]

theorem due?_of_waits {i : I} (h : store.Waits k r i) : store.due? r = some (.inl i) := by
  obtain ⟨c, hv⟩ := h
  rw [due?, hv]
  rfl

theorem due?_of_holds {i : I} (h : store.Holds k r i) : store.due? r = some (.inl i) := by
  obtain ⟨c, t, hv⟩ := h
  rw [due?, hv]
  rfl

theorem due?_of_answered {value : V} (h : store.Answered k r value) :
    store.due? r = some (.inr value) := by
  obtain ⟨issued, t, hv⟩ := h
  rw [due?, hv]
  rfl

end Store

namespace Script

variable {k : Nat} {store : Store I V X}

theorem run_dropAll (rs : List Nat) :
    (dropAll rs : Script I V X Unit).run k store = ((), store.dropAll rs) := by
  induction rs generalizing store with
  | nil => rfl
  | cons r rest ih => exact ih

theorem happenings_dropAll (rs : List Nat) :
    (dropAll rs : Script I V X Unit).happenings k store = store.droppings rs := by
  induction rs generalizing store with
  | nil => rfl
  | cons r rest ih => exact congrArg (store.dropping r ++ ·) ih

end Script

/-! ### One thing after the other -/

section Sequence

variable {o : Outlook I V σ A} {k : Nat} {store store' : Store I V X} {mine : List Nat}
  {events : List (Happening I V)} {left : σ × Store I V X} {c : Sequential I V A}

/-- What went before has left the slot as it was, and what it has made may be touched. -/
theorem Went.after {mine' : List Nat} (h : Went o k store' mine' events left c)
    (hm : ∀ r ∈ mine', r ∈ mine ∨ store.requests.size ≤ r) {before : List (Happening I V)}
    (hf : Store.Frame mine store store') (ht : store'.taken k = store.taken k)
    (hu : Untroubled before) : Went o k store mine (before ++ events) left c where
  untroubled := untroubled_append.mpr ⟨hu, h.untroubled⟩
  frame := hf.trans h.frame hm
  owned r hr := (h.owned r hr).elim (hm r) fun hs => .inr (Nat.le_trans hf.requests hs)
  lt := h.lt
  nodup := h.nodup
  behind hb := h.behind (ht.trans hb)
  value := h.value
  rest := h.rest
  freed hb := h.freed (ht.trans hb)
  head hb := h.head (ht.trans hb)

/-- When the requests of something that has come to a value are dropped, the slot is as it was. -/
theorem Went.taken_dropAll (h : Went o k store mine events left c) (hc : store.Coherent)
    (hq : ∀ r ∈ mine, store.Quiet k r) (hv : c.value?.isSome) :
    (left.2.dropAll (o.owned left.1)).taken k = store.taken k := by
  cases ht : store.taken k with
  | true =>
    have hf := h.frame.trans (Store.frame_dropAll h.frame.coherent _) h.owned
    exact hf.taken hc (fun r hr => (hq r hr).held) ht
  | false =>
    obtain hf | ⟨r, hr, i, hh⟩ := h.freed ht hv
    · exact Store.taken_dropAll_of_free _ hf
    · exact Store.taken_dropAll_of_holds h.frame.coherent hh hr

/-- Something that goes on as soon as it has come to a value, when what is left of it is dropped. -/
theorem Script.Goes.goOn {script : Script I V X σ} (h : script.Goes o k store mine c)
    (hc : store.Coherent) (hk : k < store.slots.size) (hq : ∀ r ∈ mine, store.Quiet k r)
    {next : σ → Script I V X (Activity I V T)} {reading : A → Sequential I V (Except Failure T)}
    (hsome : ∀ {s a}, o.value? s = some a → ∃ goOn : Script I V X (Activity I V T),
      next s = (dropAll (o.owned s)).bind (fun _ => goOn) ∧
      ∀ {store' : Store I V X}, store'.Coherent → k < store'.slots.size →
        goOn.Goes Activity.outlook k store' [] (reading a))
    (hnone : ∀ {s}, o.value? s = none → ∃ a : Activity I V T, next s = .done a ∧
      a.owned = o.owned s ∧ a.result? = none ∧ ∀ due, a.rest due = (o.rest due s).bind reading) :
    (script.bind next).Goes Activity.outlook k store mine (c.bind reading) := by
  unfold Goes at h ⊢
  rw [run_bind, happenings_bind]
  generalize script.run k store = left at h ⊢
  cases hv : c.value? with
  | some a =>
    obtain ⟨goOn, he, hg⟩ := hsome (h.value.trans hv)
    have hd := Store.frame_dropAll h.frame.coherent (o.owned left.1)
    have hw := hg hd.coherent (by rw [hd.slots, h.frame.slots]; exact hk)
    obtain rfl := Sequential.eq_pure_of_value? hv
    rw [he, run_bind, happenings_bind, run_dropAll, happenings_dropAll, ← List.append_assoc]
    refine hw.after (fun _ hr => absurd hr List.not_mem_nil) (h.frame.trans hd h.owned)
      (h.taken_dropAll hc hq rfl) ?_
    exact untroubled_append.mpr ⟨h.untroubled, Store.untroubled_droppings _ _⟩
  | none =>
    obtain ⟨a, he, howned, hresult, hrest⟩ := hnone (h.value.trans hv)
    have hn : (c.bind reading).value? = none := by rw [Sequential.value?_bind, hv]; rfl
    have howned : Activity.outlook.owned (a, left.2).1 = o.owned left.1 := howned
    rw [he, run, happenings, List.append_nil]
    constructor
    case toTidy => exact howned.symm ▸ h.toTidy
    case value => exact hresult.trans hn.symm
    case rest => exact (hrest _).trans (congrArg (·.bind reading) h.rest)
    case freed => simp [hn]
    case head =>
      intro ht _
      obtain ⟨i, rest, r, rfl, hh⟩ := h.head ht hv
      refine ⟨i, fun value => (rest value).bind reading, r, rfl, ?_⟩
      constructor
      case mem => exact howned.symm ▸ hh.mem
      case holds => exact hh.holds
      case quiet => exact howned.symm ▸ hh.quiet
      case rest =>
        intro due value hd hr
        exact (hrest due).trans (congrArg (·.bind reading) (hh.rest (howned.symm ▸ hd) hr))

end Sequence

end Trampoline
