import Trampoline.Proofs.Answers.Others

/-!
Every request gets the answer to its own instruction, however many others there are and in whatever
order they are polled and dropped.
-/
namespace Trampoline

variable {I V X T P S H : Type}

namespace Scene

variable [InstructionSet I] {r : Nat} {origin : Issued I × Nat} {store : Store I V X}
  {l : Language I V X T P S} {config : RunConfig} {handler : Handler I V H}
  {scene : Scene I V X T P S H}

theorem Watched.other (h : scene.Watched r origin) {deed : Deed I V X} (hd : deed.Spares r origin) :
    (scene.turn l config handler (.other deed)).Watched r origin :=
  ⟨h.watch.deed hd, fun thunk ht => (h.sound thunk ht).deed deed⟩

theorem Watched.play (hh : handler.SparesCells) (h : scene.Watched r origin)
    {turns : List (Turn I V X)} (hs : ∀ deed, .other deed ∈ turns → deed.Spares r origin) :
    (scene.play l config handler turns).Watched r origin := by
  induction turns generalizing scene with
  | nil => exact h
  | cons turn turns ih =>
    refine ih ?_ fun deed hd => hs deed (List.mem_cons_of_mem _ hd)
    cases turn with
    | own => exact h.own hh
    | other deed => exact h.other (hs deed List.mem_cons_self)

omit [InstructionSet I] in
/-- The request is not there yet when the run begins. -/
private theorem watched_start (hc : store.Coherent) (hr : store.requests.size ≤ r) (program : P)
    (state : H) : (start l program state store).Watched r origin := by
  have hv := Store.view_eq_none_iff.mpr hr
  refine .node l ⟨hc, (fun hi => by cases hi), fun _ _ => rfl, fun hv' => ?_⟩ program
  rw [hv] at hv'
  cases hv'

/-- A request that is made after the run began, and that is polled by the run alone, gets its own answer
once, as soon as it is polled after the handler has given it. Its store may be any that comes about
before; others may go on using it between all steps of the run, as long as they leave the request to
the run. -/
theorem faithful_answers (l : Language I V X T P S) (config : RunConfig)
    (hh : handler.SparesCells) (program : P) (state : H) (shared : X) (before : List (Deed I V X))
    (turns : List (Turn I V X)) {q : Request I} :
    let store := before.foldl Deed.apply (Store.fresh shared)
    let last := (start l program state store).play l config handler turns
    store.requests.size ≤ r → last.store.requests[r]? = some q →
      (∀ deed, .other deed ∈ turns → deed.Spares r q.origin) →
      Happening.Faithful r q.issued (Happening.sights r q.issued.cell last.history) := by
  intro store last hr hq hs
  have hc : store.Coherent := (Store.Coherent.fresh shared).deeds before
  have hw : last.Watched r q.origin := (watched_start hc hr program state).play hh hs
  exact (hw.watch.fate (Store.view_eq hq) rfl).faithful

open Booking in
/-- The second request of a booking, with others at work before and during the run. -/
theorem faithful_booking :
    let store : Store Instruction Answer Unit :=
      [.newSlot, .act 0 (.request (.read demo.date))].foldl Deed.apply (Store.fresh ())
    let last := (start Sequential.language (.described (tryAccept demo.capacity demo.request))
      demo.house store).play Sequential.language .default House.handler
        [.own, .own, .other (.act 0 (.poll 0)), .own, .own]
    last.store.requests[2]? = some ⟨⟨.read demo.date, 2⟩, 1, none, some 2, true⟩ ∧
      Happening.Faithful 2 ⟨.read demo.date, 2⟩ (Happening.sights 2 2 last.history) := by
  intro store last
  have hq : last.store.requests[2]? = some ⟨⟨.read demo.date, 2⟩, 1, none, some 2, true⟩ := by
    decide +kernel
  refine ⟨hq, faithful_answers Sequential.language .default House.sparesCells _ demo.house ()
    [.newSlot, .act 0 (.request (.read demo.date))]
    [.own, .own, .other (.act 0 (.poll 0)), .own, .own] (Nat.le_succ 1) hq ?_⟩
  intro deed hd
  obtain rfl : deed = .act 0 (.poll 0) := by simpa using hd
  exact Nat.zero_ne_add_one 1

end Scene

end Trampoline
