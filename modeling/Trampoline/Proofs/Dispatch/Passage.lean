import Trampoline.Proofs.Answers.Fate

/-!
The way of a single instruction from its request to the handler. It is put into the slot at most once, is
collected from there at most once, and reaches the handler at most once, each after the other; if its
request is dropped while it is in the slot, or before, it goes no further.
-/
namespace Trampoline

variable {I V X : Type}

namespace Happening

/-- What moves request number `r`, or its instruction, whose cell has number `c`. -/
def moves (r c : Nat) : Happening I V → Bool
  | issued _ s => s == r
  | dropped s => s == r
  | collected _ _ (some i) => i.cell == c
  | called i => i.cell == c
  | _ => false

/-- All moves of a request and its instruction. -/
def passage (r c : Nat) (history : List (Happening I V)) : List (Happening I V) :=
  history.filter (moves r c)

theorem passage_append (r c : Nat) (history events : List (Happening I V)) :
    passage r c (history ++ events) = passage r c history ++ passage r c events :=
  List.filter_append history events

theorem passage_eq_nil {r c : Nat} {events : List (Happening I V)}
    (h : ∀ e ∈ events, e.moves r c = false) : passage r c events = [] :=
  List.filter_eq_nil_iff.mpr fun e he => by rw [h e he]; exact Bool.false_ne_true

/-- What is in a passage has happened. -/
theorem mem_of_passage {r c : Nat} {history : List (Happening I V)} {e : Happening I V}
    (h : e ∈ passage r c history) : e ∈ history :=
  (List.mem_filter.mp h).1

theorem mem_passage {r c : Nat} {history : List (Happening I V)} {e : Happening I V}
    (h : e ∈ history) (hm : e.moves r c = true) : e ∈ passage r c history :=
  List.mem_filter.mpr ⟨h, hm⟩

/-- What has happened at some time happened before the last events, or is one of them. -/
theorem split_append {history events before after : List (Happening I V)} {e : Happening I V}
    (h : history ++ events = before ++ e :: after) :
    (∃ rest, history = before ++ e :: rest ∧ after = rest ++ events) ∨
      ∃ earlier, before = history ++ earlier ∧ events = earlier ++ e :: after := by
  obtain ⟨rest, hb, he⟩ | ⟨rest, hb, he⟩ := List.append_eq_append_iff.mp h
  · exact .inr ⟨rest, hb, he⟩
  · cases rest with
    | nil => exact .inr ⟨[], by simpa using hb.symm, he.symm⟩
    | cons x rest =>
      cases he
      exact .inl ⟨rest, hb, rfl⟩

theorem split_concat {history before after : List (Happening I V)} {e last : Happening I V}
    (h : history ++ [last] = before ++ e :: after) :
    (∃ rest, history = before ++ e :: rest) ∨ (before = history ∧ e = last) := by
  obtain ⟨rest, hb, _⟩ | ⟨earlier, rfl, he⟩ := split_append h
  · exact .inl ⟨rest, hb⟩
  · cases earlier with
    | nil =>
      cases he
      exact .inr ⟨List.append_nil history, rfl⟩
    | cons x rest => simp at he

/-- The possible passages of the instruction of request number `r`, which belongs to slot number `k`. -/
inductive Passage (r : Nat) (i : Issued I) (k : Nat) : List (Happening I V) → Prop
  | waiting : Passage r i k []
  | abandoned : Passage r i k [dropped r]
  | held : Passage r i k [issued k r]
  | withdrawn : Passage r i k [issued k r, dropped r]
  /-- A resumption has ended with the instruction in the slot, in a suspension or with a result. -/
  | collected (suspended : Bool) : Passage r i k [issued k r, collected k suspended (some i)]
  | forgone (suspended : Bool) :
      Passage r i k [issued k r, collected k suspended (some i), dropped r]
  | called : Passage r i k [issued k r, collected k true (some i), called i]
  | calledThenDropped :
      Passage r i k [issued k r, collected k true (some i), called i, dropped r]
  | droppedThenCalled :
      Passage r i k [issued k r, collected k true (some i), dropped r, called i]

end Happening

open Happening

/-- How a request stands after each passage. -/
inductive Track (r : Nat) (v : View I V) : List (Happening I V) → Prop
  | waiting : v.request.standing = .waiting → Track r v []
  | abandoned : v.request.standing = .dropped → Track r v [dropped r]
  | held (t : Nat) : v.held = true → v.request.standing = .issued t →
      Track r v [issued v.request.slot r]
  | withdrawn : v.request.standing = .dropped →
      Track r v [issued v.request.slot r, dropped r]
  | collected (suspended : Bool) (t : Nat) : v.held = false → v.request.standing = .issued t →
      Track r v [issued v.request.slot r, collected v.request.slot suspended (some v.request.issued)]
  | forgone (suspended : Bool) : v.request.standing = .dropped →
      Track r v [issued v.request.slot r,
        collected v.request.slot suspended (some v.request.issued), dropped r]
  | called (t : Nat) : v.held = false → v.request.standing = .issued t →
      Track r v [issued v.request.slot r, collected v.request.slot true (some v.request.issued),
        called v.request.issued]
  | calledThenDropped : v.request.standing = .dropped →
      Track r v [issued v.request.slot r, collected v.request.slot true (some v.request.issued),
        called v.request.issued, dropped r]
  | droppedThenCalled : v.request.standing = .dropped →
      Track r v [issued v.request.slot r, collected v.request.slot true (some v.request.issued),
        dropped r, called v.request.issued]

namespace Track

variable {r : Nat} {v v' : View I V} {passage : List (Happening I V)}

theorem passes (h : Track r v passage) : Passage r v.request.issued v.request.slot passage := by
  cases h with
  | waiting => exact .waiting
  | abandoned => exact .abandoned
  | held => exact .held
  | withdrawn => exact .withdrawn
  | collected suspended => exact .collected suspended
  | forgone suspended => exact .forgone suspended
  | called => exact .called
  | calledThenDropped => exact .calledThenDropped
  | droppedThenCalled => exact .droppedThenCalled

/-- What is in the cell makes no difference. -/
theorem congr (h : Track r v passage) (hq : v'.request = v.request) (hh : v'.held = v.held) :
    Track r v' passage := by
  obtain ⟨q, held, cell⟩ := v
  obtain ⟨q', held', cell'⟩ := v'
  obtain rfl : q' = q := hq
  obtain rfl : held' = held := hh
  cases h with
  | waiting hs => exact .waiting hs
  | abandoned hs => exact .abandoned hs
  | held t hh hs => exact .held t hh hs
  | withdrawn hs => exact .withdrawn hs
  | collected suspended t hh hs => exact .collected suspended t hh hs
  | forgone suspended hs => exact .forgone suspended hs
  | called t hh hs => exact .called t hh hs
  | calledThenDropped hs => exact .calledThenDropped hs
  | droppedThenCalled hs => exact .droppedThenCalled hs

/-- As long as a request waits nothing has moved. -/
theorem eq_nil (h : Track r v passage) (hw : v.request.standing = .waiting) : passage = [] := by
  cases h <;> simp_all

theorem eq_issued (h : Track r v passage) (hh : v.held = true) {t : Nat}
    (ht : v.request.standing = .issued t) : passage = [.issued v.request.slot r] := by
  cases h <;> simp_all

/-- A request that is polled and gets the slot. -/
theorem issue (h : Track r v passage) (hw : v.request.standing = .waiting)
    (hq : v'.request.slot = v.request.slot) {t : Nat} (ht : v'.request.standing = .issued t)
    (hh : v'.held = true) : Track r v' (passage ++ [issued v.request.slot r]) := by
  rw [h.eq_nil hw, ← hq]
  exact .held t hh ht

/-- A request is dropped, wherever its instruction may be. -/
theorem drop (h : Track r v passage) (ha : v.request.standing ≠ .dropped) :
    Track r v.drop (passage ++ [dropped r]) := by
  have hd : v.drop.request.standing = .dropped := rfl
  cases h with
  | waiting => exact .abandoned hd
  | held => exact .withdrawn (v := v.drop) hd
  | collected suspended => exact .forgone (v := v.drop) suspended hd
  | called => exact .calledThenDropped (v := v.drop) hd
  | abandoned hs => exact absurd hs ha
  | withdrawn hs => exact absurd hs ha
  | forgone _ hs => exact absurd hs ha
  | calledThenDropped hs => exact absurd hs ha
  | droppedThenCalled hs => exact absurd hs ha

/-- The instruction is found in the slot at the end of a resumption. -/
theorem collect (h : Track r v passage) (hh : v.held = true) {t : Nat}
    (ht : v.request.standing = .issued t) (suspended : Bool) :
    Track r { v with held := false }
      (passage ++ [.collected v.request.slot suspended (some v.request.issued)]) := by
  rw [h.eq_issued hh ht]
  exact .collected (v := { v with held := false }) suspended t rfl ht

/-- The handler is called for an instruction that was collected in a suspension. -/
theorem call (h : Track r v passage) (hp : passage =
      [.issued v.request.slot r, .collected v.request.slot true (some v.request.issued)] ∨
    passage = [.issued v.request.slot r, .collected v.request.slot true (some v.request.issued),
      .dropped r]) : Track r v (passage ++ [.called v.request.issued]) := by
  obtain rfl | rfl := hp
  · cases h with
    | collected _ t hh hs => exact .called t hh hs
  · cases h with
    | forgone _ hs => exact .droppedThenCalled hs

end Track

end Trampoline
