import Trampoline.Proofs.History.Polls
import Trampoline.Proofs.Store.View

/-!
What becomes of a single request. Its instruction stays with it or in the slot until it is collected,
is then with the run until the handler is done with it, and its answer stays in the cell until the
request is polled again. At every moment this decides what can have happened to the request so far.
-/
namespace Trampoline

variable {I V X : Type}

namespace Happening

/-- What concerns request number `r`, whose answer goes to cell number `c`. -/
def concerns (r c : Nat) : Happening I V → Bool
  | polled s _ => s == r
  | called i => i.cell == c
  | answered i _ => i.cell == c
  | refused i _ => i.cell == c
  | _ => false

/-- All that has happened to a request. -/
def sights (r c : Nat) (history : List (Happening I V)) : List (Happening I V) :=
  history.filter (concerns r c)

theorem sights_append (r c : Nat) (history events : List (Happening I V)) :
    sights r c (history ++ events) = sights r c history ++ sights r c events :=
  List.filter_append history events

/-- What may happen to a request, cut short anywhere: it is told to wait any number of times, and its
instruction goes to the handler once. The first poll after the answer gives this answer, and all later
ones say that it was taken. -/
inductive Faithful (r : Nat) (issued : Issued I) : List (Happening I V) → Prop
  | unasked (n : Nat) : Faithful r issued (.replicate n (polled r none))
  | asked (n : Nat) : Faithful r issued (.replicate n (polled r none) ++ [called issued])
  | refused (n : Nat) (failure : Failure) :
      Faithful r issued
        (.replicate n (polled r none) ++ [called issued, .refused issued failure])
  | answered (n : Nat) (value : V) :
      Faithful r issued
        (.replicate n (polled r none) ++ [called issued, .answered issued value])
  | delivered (n m : Nat) (value : V) :
      Faithful r issued
        (.replicate n (polled r none) ++ called issued :: .answered issued value ::
          polled r (some (.ok value)) ::
            .replicate m (polled r (some (.error .alreadyTaken))))

end Happening

open Happening

/-- What a run has in hand. -/
inductive Hand (I : Type) where
  /-- No instruction. -/
  | free
  /-- An instruction for which the handler was not called yet. -/
  | awaiting (issued : Issued I)
  | calling (issued : Issued I)
  /-- The run has a result, or has failed. -/
  | ended

namespace Hand

/-- The instruction in hand. -/
def issued? : Hand I → Option (Issued I)
  | awaiting i => some i
  | calling i => some i
  | free => none
  | ended => none

/-- The instruction in hand has another cell. -/
def Spares (hand : Hand I) (c : Nat) : Prop :=
  ∀ issued, hand.issued? = some issued → issued.cell ≠ c

theorem spares_free (c : Nat) : (free : Hand I).Spares c := by
  intro i h
  cases h

end Hand

namespace View

/-- The instruction was not collected. -/
def Kept (v : View I V) : Prop :=
  v.held = true ∨ v.request.standing = .waiting ∨ v.request.standing = .dropped

/-- The instruction is neither with the request nor in the slot. -/
def Gone (v : View I V) : Prop :=
  v.held = false ∧ v.request.standing ≠ .waiting

end View

/-- How a request stands, what the run has in hand, and what has happened to the request so far. -/
inductive Fate (r : Nat) (v : View I V) : Hand I → List (Happening I V) → Prop
  | kept {hand : Hand I} (n : Nat) : v.Kept → v.cell = .empty → hand.Spares v.request.issued.cell →
      Fate r v hand (.replicate n (polled r none))
  | awaiting (n : Nat) : v.Gone → v.cell = .empty →
      Fate r v (.awaiting v.request.issued) (.replicate n (polled r none))
  | calling (n : Nat) : v.Gone → v.cell = .empty →
      Fate r v (.calling v.request.issued)
        (.replicate n (polled r none) ++ [called v.request.issued])
  | answered {hand : Hand I} (n : Nat) (value : V) : v.Gone → v.cell = .full value →
      hand.Spares v.request.issued.cell →
      Fate r v hand (.replicate n (polled r none) ++
        [called v.request.issued, .answered v.request.issued value])
  | delivered {hand : Hand I} (n m : Nat) (value : V) : v.Gone → v.cell = .taken →
      hand.Spares v.request.issued.cell →
      Fate r v hand (.replicate n (polled r none) ++ called v.request.issued ::
        .answered v.request.issued value :: polled r (some (.ok value)) ::
          .replicate m (polled r (some (.error .alreadyTaken))))
  | ended {sights : List (Happening I V)} : Faithful r v.request.issued sights →
      Fate r v .ended sights

namespace Fate

variable {r : Nat} {v v' : View I V} {hand hand' : Hand I} {sights : List (Happening I V)}

theorem faithful (h : Fate r v hand sights) : Faithful r v.request.issued sights := by
  cases h with
  | kept n => exact .unasked n
  | awaiting n => exact .unasked n
  | calling n => exact .asked n
  | answered n value => exact .answered n value
  | delivered n m value => exact .delivered n m value
  | ended h => exact h

/-- As long as the run had nothing in hand that concerns the request, it may take anything else. -/
theorem rehand (h : Fate r v hand sights) (hs : hand.Spares v.request.issued.cell)
    (ho : hand ≠ .ended) (hs' : hand'.Spares v.request.issued.cell) : Fate r v hand' sights := by
  cases h with
  | kept n hk he _ => exact .kept n hk he hs'
  | awaiting => exact absurd rfl (hs _ rfl)
  | calling => exact absurd rfl (hs _ rfl)
  | answered n value hg hf _ => exact .answered n value hg hf hs'
  | delivered n m value hg ht _ => exact .delivered n m value hg ht hs'
  | ended => exact absurd rfl ho

theorem take (h : Fate r v .free sights) {i : Issued I} (hi : hand'.issued? = some i)
    (hc : i.cell ≠ v.request.issued.cell) : Fate r v hand' sights := by
  refine h.rehand (Hand.spares_free _) (fun he => by cases he) fun j hj => ?_
  rw [hi] at hj
  cases hj
  exact hc

/-- A request that is polled while the run has nothing in hand. -/
theorem poll (h : Fate r v .free sights) (ha : v.request.standing ≠ .dropped)
    {answer : Option (Except CellError V)} (hp : v.Polled answer v') :
    Fate r v' .free (sights ++ [polled r answer]) := by
  cases h with
  | kept n hk he hs =>
    have hn : List.replicate n (polled r none) ++ [polled r none] =
        (.replicate (n + 1) (polled r none) : List (Happening I V)) :=
      List.replicate_succ'.symm
    cases hp with
    | dropped hd => exact absurd hd ha
    | behind => exact hn ▸ .kept (n + 1) hk he hs
    | issued t => exact hn ▸ .kept (n + 1) (.inl rfl) he hs
    | held => exact hn ▸ .kept (n + 1) hk he hs
    | read t hst hh =>
      obtain h | h | h := hk
      · rw [hh] at h
        cases h
      · rw [hst] at h
        cases h
      · exact absurd h ha
  | answered n value hg hf hs =>
    cases hp with
    | dropped hd => exact absurd hd ha
    | behind hw => exact absurd hw hg.2
    | issued t hw => exact absurd hw hg.2
    | held hh => exact absurd (hg.1.symm.trans hh) Bool.false_ne_true
    | read t hst hh =>
      rw [hf, List.append_assoc]
      exact .delivered n 0 value hg rfl hs
  | delivered n m value hg ht hs =>
    cases hp with
    | dropped hd => exact absurd hd ha
    | behind hw => exact absurd hw hg.2
    | issued t hw => exact absurd hw hg.2
    | held hh => exact absurd (hg.1.symm.trans hh) Bool.false_ne_true
    | read t hst hh =>
      rw [ht, List.append_assoc]
      simp only [List.cons_append, Cell.fetch, Cell.take]
      rw [← List.replicate_succ']
      exact .delivered n (m + 1) value hg rfl hs

/-- A request whose instruction is collected from the slot. -/
theorem collect (h : Fate r v .free sights) (hh : v.held = true)
    (hs : ∃ t, v.request.standing = .issued t) :
    Fate r { v with held := false } (.awaiting v.request.issued) sights := by
  obtain ⟨t, ht⟩ := hs
  cases h with
  | kept n _ he _ => exact .awaiting (v := { v with held := false }) n ⟨rfl, by simp [ht]⟩ he
  | answered n value hg => exact absurd (hg.1.symm.trans hh) Bool.false_ne_true
  | delivered n m value hg => exact absurd (hg.1.symm.trans hh) Bool.false_ne_true

/-- The run cannot have another instruction in hand that has the same cell. -/
theorem eq_of_cell (h : Fate r v hand sights) {i : Issued I} (hi : hand.issued? = some i)
    (hc : i.cell = v.request.issued.cell) : i = v.request.issued := by
  cases h with
  | kept n _ _ hs => exact absurd hc (hs _ hi)
  | awaiting => exact (Option.some.inj hi).symm
  | calling => exact (Option.some.inj hi).symm
  | answered n value _ _ hs => exact absurd hc (hs _ hi)
  | delivered n m value _ _ hs => exact absurd hc (hs _ hi)
  | ended => cases hi

theorem called (h : Fate r v (.awaiting v.request.issued) sights) :
    Fate r v (.calling v.request.issued) (sights ++ [.called v.request.issued]) := by
  cases h with
  | kept n _ _ hs => exact absurd rfl (hs _ rfl)
  | awaiting n hg he => exact .calling n hg he
  | answered n value _ _ hs => exact absurd rfl (hs _ rfl)
  | delivered n m value _ _ hs => exact absurd rfl (hs _ rfl)

/-- A call is over: the cell is still empty, and has the answer next. -/
theorem replied (h : Fate r v (.calling v.request.issued) sights) :
    v.cell = .empty ∧
      (∀ value, Fate r { v with cell := .full value } .free
        (sights ++ [.answered v.request.issued value])) ∧
      ∀ failure, Fate r v .ended (sights ++ [.refused v.request.issued failure]) := by
  cases h with
  | kept n _ _ hs => exact absurd rfl (hs _ rfl)
  | answered n value _ _ hs => exact absurd rfl (hs _ rfl)
  | delivered n m value _ _ hs => exact absurd rfl (hs _ rfl)
  | calling n hg he =>
    refine ⟨he, fun value => ?_, fun failure => ?_⟩
    · rw [List.append_assoc]
      exact .answered (v := { v with cell := .full value }) n value hg rfl (Hand.spares_free _)
    · rw [List.append_assoc]
      exact .ended (.refused n failure)

/-- A request may be dropped at any time. -/
theorem drop (h : Fate r v hand sights) : Fate r v.drop hand sights := by
  have hg : v.drop.Gone := ⟨rfl, by simp [View.drop]⟩
  cases h with
  | kept n _ he hs => exact .kept n (.inr (.inr rfl)) he hs
  | awaiting n _ he => exact .awaiting n hg he
  | calling n _ he => exact .calling n hg he
  | answered n value _ hf hs => exact .answered n value hg hf hs
  | delivered n m value _ ht hs => exact .delivered n m value hg ht hs
  | ended h => exact .ended h

end Fate

end Trampoline
