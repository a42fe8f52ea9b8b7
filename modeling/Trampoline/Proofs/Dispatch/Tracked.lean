import Trampoline.Proofs.Dispatch.Passage
import Trampoline.Proofs.Runs.Strides
import Trampoline.Proofs.Store.Frames

/-!
What is known of a single request: how far its instruction has come, and what follows when it is polled,
dropped or collected, or when the handler is called for it.
-/
namespace Trampoline

variable {I V X : Type}

open Happening (passage passage_append)

/-- What can tell anything of request number `r`, whose cell has number `c`. -/
def Happening.tells (r c : Nat) : Happening I V → Bool
  | polled s _ => s == r
  | e => e.moves r c

theorem Happening.moves_of_tells {r c : Nat} {e : Happening I V} (h : e.tells r c = false) :
    e.moves r c = false := by
  cases e with
  | polled s answer => rfl
  | _ => exact h

/-- What is told of a poll, and what it does to the request that is polled. -/
inductive View.Told (r : Nat) (v : View I V) : List (Happening I V) → View I V → Prop
  | dropped : v.request.standing = .dropped → Told r v [] v
  | waits : v.request.standing ≠ .dropped → Told r v [.polled r none] v
  | issued (t : Nat) : v.request.standing = .waiting →
      Told r v [.polled r none, .issued v.request.slot r]
        ⟨v.request.ticketed t, true, v.cell⟩
  | read (t : Nat) (answer : Except CellError V) (cell : Cell V) :
      v.request.standing = .issued t → v.held = false →
      Told r v [.polled r (some answer)] { v with cell := cell }

theorem Store.view_told {store : Store I V X} (hc : store.Coherent) {r : Nat} {v : View I V}
    (hv : store.view r = some v) :
    ∃ v', (store.poll r).2.view r = some v' ∧ v.Told r (store.polling r) v' := by
  have hr := request_of_view hv
  have ht := told_poll store r
  generalize store.polling r = events, (store.poll r).2 = store' at ht ⊢
  cases ht with
  | gone hd => exact ⟨v, hv, .dropped (Request.standing_eq_dropped_iff.mpr (hd _ hr))⟩
  | waits q hq hd =>
    obtain rfl := Option.some.inj (hr.symm.trans hq)
    exact ⟨v, hv, .waits (Request.standing_ne_dropped_iff.mpr hd)⟩
  | read q answer cell hq hd hi hh =>
    obtain ⟨t, ht⟩ := hc.of_no_instruction hq hd hi
    obtain rfl := Option.some.inj (hr.symm.trans hq)
    exact ⟨_, view_putCell_self hc _ hv, .read t _ _ ht ((held_of_view hv).symm.trans hh)⟩
  | issued q i hq hd hi hf =>
    obtain ⟨hw, rfl⟩ := hc.of_instruction hq hd hi
    obtain rfl := Option.some.inj (hr.symm.trans hq)
    exact ⟨_, view_occupy_self hc hr hd, cell_of_view hv ▸ .issued _ hw⟩

theorem View.Told.origin {r : Nat} {v v' : View I V} {events : List (Happening I V)}
    (h : v.Told r events v') : v'.request.origin = v.request.origin := by
  cases h <;> rfl

/-- What is known of a request that was made. -/
structure Tracked (r : Nat) (v : View I V) (hand : Hand I) (history : List (Happening I V)) :
    Prop where
  track : Track r v (passage r v.request.issued.cell history)
  awaiting : ∀ {i : Issued I}, hand = .awaiting i → i.cell = v.request.issued.cell →
    i = v.request.issued ∧
      (passage r i.cell history = [.issued v.request.slot r, .collected v.request.slot true (some i)] ∨
        passage r i.cell history =
          [.issued v.request.slot r, .collected v.request.slot true (some i), .dropped r])
  read : ∀ {answer : Except CellError V}, .polled r (some answer) ∈ history →
    v.held = false ∧ v.request.standing ≠ .waiting

namespace Tracked

variable {r : Nat} {v v' : View I V} {hand : Hand I} {history events : List (Happening I V)}

/-- What does not tell of the request makes no difference, nor does what is in its cell. -/
theorem append (h : Tracked r v hand history) (hq : v'.request = v.request) (hh : v'.held = v.held)
    (he : ∀ e ∈ events, e.tells r v.request.issued.cell = false) :
    Tracked r v' hand (history ++ events) := by
  have hp : ∀ c, c = v.request.issued.cell → passage r c (history ++ events) = passage r c history := by
    rintro c rfl
    rw [passage_append, Happening.passage_eq_nil fun e hm => Happening.moves_of_tells (he e hm),
      List.append_nil]
  have hm : ∀ e ∈ history ++ events, e.tells r v.request.issued.cell = true → e ∈ history := by
    intro e hm ht
    refine (List.mem_append.mp hm).resolve_right fun hm => ?_
    rw [he e hm] at ht
    cases ht
  constructor
  case track =>
    rw [hq, hp _ rfl]
    exact h.track.congr hq hh
  case awaiting =>
    intro i hi hc
    rw [hq] at hc ⊢
    rw [hp _ hc]
    exact h.awaiting hi hc
  case read =>
    intro answer ha
    rw [hq, hh]
    exact h.read (hm _ ha (beq_self_eq_true r))

/-- The run has taken something in hand that the request's instruction is not waiting in. -/
theorem rehand {hand' : Hand I} (h : Tracked r v hand history)
    (ha : ∀ i, hand' = .awaiting i → i.cell ≠ v.request.issued.cell) : Tracked r v hand' history :=
  ⟨h.track, fun hi hc => absurd hc (ha _ hi), h.read⟩

/-- An instruction that the run waits to call the handler for was issued. -/
theorem ne_waiting (h : Tracked r v hand history) {i : Issued I} (hi : hand = .awaiting i)
    (hc : i.cell = v.request.issued.cell) : v.request.standing ≠ .waiting := by
  intro hw
  have hn := h.track.eq_nil hw
  rw [← hc] at hn
  obtain ⟨_, hp | hp⟩ := h.awaiting hi hc <;> rw [hn] at hp <;> cases hp

theorem told (h : Tracked r v hand history) (ht : v.Told r events v') :
    Tracked r v' hand (history ++ events) := by
  have polled (answer : Option (Except CellError V)) (c : Nat) :
      passage r c (history ++ [.polled r answer]) = passage r c history := by
    rw [passage_append]
    exact List.append_nil _
  cases ht with
  | dropped => rwa [List.append_nil]
  | waits hs =>
    constructor
    case track => rw [polled]; exact h.track
    case awaiting => intro i; rw [polled]; exact h.awaiting
    case read => exact fun ha => h.read (by simpa using ha)
  | read t answer cell ht hh =>
    constructor
    case track => rw [polled]; exact h.track.congr rfl rfl
    case awaiting => intro i; rw [polled]; exact h.awaiting
    case read => exact fun _ => ⟨hh, by rw [ht]; nofun⟩
  | issued t hw =>
    rw [List.append_cons]
    constructor
    case track =>
      have hp : ∀ c, passage r c (history ++ [.polled r none] ++ [.issued v.request.slot r]) =
          passage r c history ++ [.issued v.request.slot r] := by
        intro c
        rw [passage_append, polled]
        simp [passage, Happening.moves]
      rw [hp]
      exact h.track.issue hw rfl (Request.standing_ticketed_of_waiting hw t) rfl
    case awaiting => exact fun hi hc => absurd hw (h.ne_waiting hi hc)
    case read =>
      intro answer ha
      have ha' : .polled r (some answer) ∈ history := by simpa using ha
      exact absurd hw (h.read ha').2

theorem drop (h : Tracked r v hand history) (ha : v.request.standing ≠ .dropped) :
    Tracked r v.drop hand (history ++ [.dropped r]) := by
  have hp : ∀ c, passage r c (history ++ [.dropped r]) = passage r c history ++ [.dropped r] := by
    intro c
    rw [passage_append]
    simp [passage, Happening.moves]
  constructor
  case track => rw [hp]; exact h.track.drop ha
  case awaiting =>
    intro i hi hc
    obtain ⟨rfl, hw⟩ := h.awaiting hi hc
    rw [hp]
    refine ⟨rfl, .inr (hw.elim (fun hw => by rw [hw]; rfl) fun hw => ?_)⟩
    have ht := h.track
    rw [hw] at ht
    cases ht with
    | forgone _ hd => exact absurd hd ha
  case read => exact fun _ => ⟨rfl, nofun⟩

/-- Its instruction is collected, with the run going on or not. -/
theorem collect (h : Tracked r v .free history) (hh : v.held = true) {t : Nat}
    (ht : v.request.standing = .issued t) (suspended : Bool) :
    Tracked r { v with held := false } (.resumed suspended (some v.request.issued))
      (history ++ [.collected v.request.slot suspended (some v.request.issued)]) := by
  have hp : passage r v.request.issued.cell
      (history ++ [.collected v.request.slot suspended (some v.request.issued)]) =
        passage r v.request.issued.cell history ++
          [.collected v.request.slot suspended (some v.request.issued)] := by
    rw [passage_append]
    simp [passage, Happening.moves]
  constructor
  case track => rw [hp]; exact h.track.collect hh ht suspended
  case awaiting =>
    cases suspended with
    | false => exact nofun
    | true =>
      intro i hi _
      cases hi
      rw [hp, h.track.eq_issued hh ht]
      exact ⟨rfl, .inl rfl⟩
  case read =>
    intro answer ha
    have ha' : .polled r (some answer) ∈ history := by simpa using ha
    exact ⟨rfl, (h.read ha').2⟩

/-- The handler is called for its instruction. -/
theorem called (h : Tracked r v (.awaiting v.request.issued) history) :
    Tracked r v (.calling v.request.issued) (history ++ [.called v.request.issued]) := by
  constructor
  case track =>
    rw [passage_append]
    simpa [passage, Happening.moves] using h.track.call (h.awaiting rfl rfl).2
  case awaiting => exact nofun
  case read => exact fun ha => h.read (by simpa using ha)

end Tracked

end Trampoline
