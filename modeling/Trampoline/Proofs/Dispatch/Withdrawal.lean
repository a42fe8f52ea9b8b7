import Trampoline.Proofs.Dispatch.Endings
import Trampoline.Proofs.Dispatch.Occupancy
import Trampoline.Proofs.Dispatch.Traced

/-!
Which instructions are dispatched. Only what is in the slot when a description is suspended reaches the
handler; whatever was withdrawn before, still waits, or is left behind by a description that has returned
never does. A request that is not in the slot may be dropped without anybody noticing.
-/
namespace Trampoline

variable {I V X T P S H : Type}

open Happening (passage occupant Passage)

/-! ### A request in a history -/

namespace Happening

/-- What goes to the handler was collected in a suspension, and was not dropped before that. -/
theorem Passage.before_called {r k : Nat} {i : Issued I} {before after : List (Happening I V)}
    (h : Passage r i k (before ++ .called i :: after)) :
    before = [.issued k r, .collected k true (some i)] ∨
      before = [.issued k r, .collected k true (some i), .dropped r] := by
  generalize he : before ++ .called i :: after = passage at h
  cases h <;> rcases before with _ | ⟨_, _ | ⟨_, _ | ⟨_, _ | _⟩⟩⟩ <;> simp_all

/-- Request number `r` was polled while slot number `k` was free, was not dropped, and still had its
instruction in the slot at the end of a resumption in which the description was suspended. -/
def Reached (r k : Nat) (i : Issued I) (history : List (Happening I V)) : Prop :=
  ∃ earlier meanwhile later,
    history = earlier ++ .polled r none :: .issued k r ::
      (meanwhile ++ .collected k true (some i) :: later) ∧
    occupant k earlier = none ∧ .dropped r ∉ earlier ∧ .dropped r ∉ meanwhile ∧
    occupant k (earlier ++ .polled r none :: .issued k r :: meanwhile) = some r

/-- When the instruction of request number `r`, which belongs to the description with slot number `k`, is
dispatched, and when it never is. -/
structure Earned (r k : Nat) (i : Issued I) (history : List (Happening I V)) : Prop where
  reached : ∀ before after, history = before ++ .called i :: after → Reached r k i before
  unpolled : (∀ answer, .polled r answer ∉ history) → .called i ∉ history
  /-- A request that is dropped before its instruction is collected. -/
  dropped : ∀ before after, history = before ++ .dropped r :: after →
    (∀ suspended, .collected k suspended (some i) ∉ before) → .called i ∉ history
  /-- A request that waits, or has its instruction in the slot, when the description returns. -/
  returned : ∀ before after found, history = before ++ .collected k false found :: after →
    .issued k r ∉ before ∨ occupant k before = some r → .called i ∉ history

end Happening

section Histories

variable {r k : Nat} {i : Issued I} {history : List (Happening I V)} {store : Store I V X}
  {hand : Hand I} {q : Request I}

/-- What is found in the slot tells who is there. -/
private theorem Store.Finds.who (hc : store.Coherent) (hq : store.requests[r]? = some q)
    {who : Option Nat} {found : Option (Issued I)} (h : store.Finds k who found)
    (hf : found = some q.issued) : who = some r := by
  cases h with
  | nobody => cases hf
  | occupant ho =>
    cases hf
    rw [Store.origins, Array.getElem?_map, Option.map_eq_some_iff] at ho
    obtain ⟨p, hp, he⟩ := ho
    have hi : p.issued = q.issued := congrArg Prod.fst he
    rw [hc.cell_inj hp hq (congrArg Issued.cell hi)]

private theorem Store.Finds.what (hq : store.requests[r]? = some q) {found : Option (Issued I)}
    (h : store.Finds k (some r) found) : found = some q.issued := by
  cases h with
  | occupant ho =>
    rw [Store.origins_of_some hq] at ho
    cases ho
    rfl

private theorem reached_of_called (hq : store.requests[r]? = some q)
    (hp : Passage r q.issued q.slot (passage r q.issued.cell history))
    (ho : Occupancy q.slot history store) {before after : List (Happening I V)}
    (hb : history = before ++ .called q.issued :: after) :
    Happening.Reached r q.slot q.issued before := by
  have hm : Happening.moves r q.issued.cell (.called q.issued : Happening I V) = true :=
    beq_self_eq_true _
  rw [hb, Happening.passage_append, passage, passage, List.filter_cons_of_pos hm] at hp
  obtain ⟨rest, hf⟩ : ∃ rest, before.filter (Happening.moves r q.issued.cell) =
      .issued q.slot r :: .collected q.slot true (some q.issued) :: rest :=
    hp.before_called.elim (fun hf => ⟨_, hf⟩) fun hf => ⟨_, hf⟩
  obtain ⟨pre, following, rfl, hpre, _, hf⟩ := List.filter_eq_cons_iff.mp hf
  obtain ⟨meanwhile, later, rfl, hmean, _, _⟩ := List.filter_eq_cons_iff.mp hf
  have not_dropped {events : List (Happening I V)}
      (h : ∀ e ∈ events, ¬ Happening.moves r q.issued.cell e = true) : .dropped r ∉ events :=
    fun hd => h _ hd (beq_self_eq_true r)
  have hs : history = pre ++ .issued q.slot r ::
      (meanwhile ++ .collected q.slot true (some q.issued) :: later ++ .called q.issued :: after) := by
    simpa using hb
  obtain ⟨hfree, earlier, rfl⟩ := ho.free _ _ _ hs
  rw [Happening.occupant_concat] at hfree
  have hfound := ho.found (earlier ++ .polled r none :: .issued q.slot r :: meanwhile)
    (later ++ .called q.issued :: after) true (some q.issued) (by simpa using hs)
  refine ⟨earlier, meanwhile, later, by simp, hfree, fun hd => ?_, not_dropped hmean,
    hfound.who ho.coherent hq rfl⟩
  exact not_dropped hpre (List.mem_append_left _ hd)

private theorem not_called_of_dropped (hq : store.requests[r]? = some q)
    (hp : Passage r q.issued q.slot (passage r q.issued.cell history))
    (ho : Occupancy q.slot history store) {before after : List (Happening I V)}
    (hb : history = before ++ .dropped r :: after)
    (hn : ∀ suspended, .collected q.slot suspended (some q.issued) ∉ before) :
    .called q.issued ∉ history := by
  intro hc
  obtain ⟨first, last, hs⟩ := List.append_of_mem hc
  obtain ⟨earlier, meanwhile, later, rfl, _, he, hm, _⟩ := reached_of_called hq hp ho hs
  -- The drop comes after the collection, since it is not found before it.
  have hd : .dropped r ∉ earlier ++ .polled r none :: .issued q.slot r :: meanwhile := by
    simp [he, hm]
  have hs' : (earlier ++ .polled r none :: .issued q.slot r :: meanwhile) ++
      (.collected q.slot true (some q.issued) :: (later ++ .called q.issued :: last)) =
        before ++ .dropped r :: after := by
    rw [← hb, hs]
    simp
  obtain ⟨rest, hr, _⟩ | ⟨rest, rfl, hr⟩ := Happening.split_append hs'
  · exact hd (hr ▸ by simp)
  · cases rest with
    | nil => simp at hr
    | cons e rest =>
      obtain ⟨rfl, _⟩ := List.cons_eq_cons.mp hr
      exact hn true (by simp)

private theorem not_called_of_returned (hq : store.requests[r]? = some q)
    (hp : Passage r q.issued q.slot (passage r q.issued.cell history))
    (ho : Occupancy q.slot history store) (hc : Concluded history hand)
    {before after : List (Happening I V)} {found : Option (Issued I)}
    (hb : history = before ++ .collected q.slot false found :: after)
    (hn : .issued q.slot r ∉ before ∨ occupant q.slot before = some r) :
    .called q.issued ∉ history := by
  intro hcalled
  obtain hn | hn := hn
  · rw [hb] at hcalled
    rcases List.mem_append.mp hcalled with hm | hm
    · -- What was called for before was issued before.
      obtain ⟨first, last, rfl⟩ := List.append_of_mem hm
      rw [List.append_assoc, List.cons_append] at hb
      obtain ⟨earlier, meanwhile, later, rfl, _⟩ := reached_of_called hq hp ho hb
      exact hn (by simp)
    · cases hm with
      | tail _ hm =>
        have := (hc _ _ _ _ hb).2 _ hm
        cases this
  · have hf := ho.found _ _ _ _ hb
    rw [hn] at hf
    have hm : .collected q.slot false (some q.issued) ∈ passage r q.issued.cell history :=
      Happening.mem_passage (by rw [hb, hf.what hq]; simp) (beq_self_eq_true _)
    have hm' : .called q.issued ∈ passage r q.issued.cell history :=
      Happening.mem_passage hcalled (beq_self_eq_true _)
    generalize passage r q.issued.cell history = moves at hp hm hm'
    cases hp <;> simp_all

theorem Happening.Earned.of_passage (hq : store.requests[r]? = some q)
    (hp : Passage r q.issued q.slot (passage r q.issued.cell history))
    (ho : Occupancy q.slot history store) (hc : Concluded history hand) :
    Happening.Earned r q.slot q.issued history where
  reached _ _ := reached_of_called hq hp ho
  unpolled hn hcalled := by
    obtain ⟨before, after, hb⟩ := List.append_of_mem hcalled
    obtain ⟨earlier, meanwhile, later, rfl, _⟩ := reached_of_called hq hp ho hb
    exact hn none (hb ▸ by simp)
  dropped _ _ := not_called_of_dropped hq hp ho
  returned _ _ _ := not_called_of_returned hq hp ho hc

/-- A request whose instruction is not in the slot. -/
theorem Traced.not_held (ht : Traced r (q.issued, q.slot) history store hand) {v : View I V}
    (hv : store.view r = some v) (hq : v.request = q)
    (hn : .issued q.slot r ∉ history ∨
      (∃ suspended, .collected q.slot suspended (some q.issued) ∈ history) ∨
        ∃ answer, .polled r (some answer) ∈ history) : v.held = false := by
  subst hq
  have htr := ht.tracked hv rfl
  refine Bool.eq_false_iff.mpr fun hh => ?_
  obtain ⟨t, hst⟩ := Store.standing_of_held hv hh
  have hp := htr.track.eq_issued hh hst
  obtain hn | ⟨suspended, hn⟩ | ⟨answer, hn⟩ := hn
  · exact hn (Happening.mem_of_passage (hp ▸ List.mem_singleton_self _))
  · have hm : .collected v.request.slot suspended (some v.request.issued) ∈
        passage r v.request.issued.cell history :=
      Happening.mem_passage hn (beq_self_eq_true _)
    rw [hp] at hm
    simp at hm
  · rw [(htr.read hn).1] at hh
    cases hh

/-- Dropping a request whose instruction is not in the slot leaves all else as it is. -/
theorem Store.drop_of_not_held {v : View I V} (hv : store.view r = some v) (hh : v.held = false) :
    (store.drop r).slots = store.slots ∧ (store.drop r).cells = store.cells ∧
      (store.drop r).shared = store.shared ∧
      ∀ s, s ≠ r → (store.drop r).requests[s]? = store.requests[s]? := by
  have hn : store.holding v.request = false := (held_of_view hv).trans hh
  have he := drop_eq (request_of_view hv)
  simp only [hn, Bool.false_eq_true, if_false] at he
  refine ⟨by rw [he]; rfl, by rw [he]; rfl, by rw [he]; rfl, fun s hs => ?_⟩
  rw [requests_drop, if_neg (Ne.symm hs)]

end Histories

/-! ### Runs -/

namespace Scene

/-- Part of the next turn is done already; a description may be in the midst of a resumption. -/
def Amid (scene : Scene I V X T P S H) (history : List (Happening I V)) (store : Store I V X) : Prop :=
  ∃ hand events hand', (hand = scene.run.stage.hand ∨ hand = .ended) ∧
    history = scene.history ++ events ∧ Strides hand scene.store events hand' store

variable [InstructionSet I]

/-- How request number `r` of the description with slot number `k` is dispatched. -/
structure Dispatches (l : Language I V X T P S) (config : RunConfig) (handler : Handler I V H)
    (scene : Scene I V X T P S H) (r k : Nat) : Prop where
  earned : ∀ q, scene.store.requests[r]? = some q → q.slot = k →
    Happening.Earned r k q.issued scene.history
  /-- What has happened tells at any moment who is in the slot. -/
  occupancy : ∀ history store, scene.Amid history store →
    ∀ s, occupant k history = some s ↔ store.Occupies k s
  /-- A request that is in the slot at the end of a resumption is dispatched by the next turn, whatever
  other requests were dropped since it came there. -/
  dispatched : ∀ q before meanwhile after found, scene.store.requests[r]? = some q → q.slot = k →
    scene.history = before ++ .issued k r :: (meanwhile ++ .collected k true found :: after) →
    .dropped r ∉ meanwhile → (∀ suspended found, .collected k suspended found ∉ meanwhile) →
      found = some q.issued ∧
        (.called q.issued ∈ (scene.turn l config handler .own).history ∨
          (scene.turn l config handler .own).OutOfSteps config)
  /-- A request that never got the slot, was collected already, or was answered can be dropped at any
  moment, and leaves the slots and all other requests as they are. -/
  harmless : ∀ history store q, scene.Amid history store → store.requests[r]? = some q → q.slot = k →
    (.issued k r ∉ history ∨ (∃ suspended, .collected k suspended (some q.issued) ∈ history) ∨
      ∃ answer, .polled r (some answer) ∈ history) →
    (store.drop r).slots = store.slots ∧ (store.drop r).cells = store.cells ∧
      (store.drop r).shared = store.shared ∧
      ∀ s, s ≠ r → (store.drop r).requests[s]? = store.requests[s]?

variable {handler : Handler I V H}

/-- Only what is in the slot at the end of a resumption is dispatched, and dropping a request takes
nothing but its own instruction away. The store of the run may be any that comes about before, and others
may use it between all turns, the requests of the description included; they only do not collect from its
slot. -/
theorem play_dispatches (l : Language I V X T P S) (config : RunConfig) (handler : Handler I V H)
    (program : P) (state : H) (shared : X) (before : List (Deed I V X)) (turns : List (Turn I V X))
    (r k : Nat) :
    let store := before.foldl Deed.apply (Store.fresh shared)
    let last := (start l program state store).play l config handler turns
    store.slots.size ≤ k → .other (.collect k) ∉ turns → last.Dispatches l config handler r k := by
  intro store last hk ha
  have hc : store.Coherent := (Store.Coherent.fresh shared).deeds before
  have hs : (start l program state store).Sound := sound_start l hc program state
  have ha' : ∀ deed, .other deed ∈ turns → deed ≠ .collect k := fun deed hd he => ha (he ▸ hd)
  have hoccupancy : Occupancy k last.history last.store :=
    (Occupancy.steady k).play hs ((Occupancy.steady k).start l program state (.start hc hk)) ha'
  have hconcluded : Concluded last.history last.run.stage.hand :=
    Concluded.steady.play hs (Concluded.steady.start l program state (.start _)) fun _ _ => trivial
  have htraced (i : Issued I) : Traced r (i, k) last.history last.store last.run.stage.hand :=
    (Traced.steady r (i, k)).play hs ((Traced.steady r (i, k)).start l program state (.start hc hk)) ha'
  constructor
  case earned =>
    rintro q hq rfl
    have ht := (htraced q.issued).tracked (Store.view_eq hq) rfl
    exact .of_passage hq ht.track.passes hoccupancy hconcluded
  case dispatched =>
    rintro q before meanwhile after found hq rfl hh hd hm
    have hin : occupant q.slot (before ++ [.issued q.slot r]) = some r := by
      rw [Happening.occupant_concat]
      exact if_pos rfl
    have hstay := hoccupancy.stays (hh.trans (List.append_cons ..)) hin hd hm
    have hf := hoccupancy.found (before ++ [.issued q.slot r] ++ meanwhile) after true found
      (by simpa using hh)
    rw [hstay] at hf
    obtain rfl := hf.what hq
    have howes : last.Owes config := (owes_start l config program state store).play hs turns
    rw [← List.cons_append, ← List.append_assoc] at hh
    exact ⟨rfl, howes.called (hs.play turns) hh⟩
  case occupancy =>
    rintro history store ⟨hand, events, hand', _, rfl, hstrides⟩
    exact ((Occupancy.steady k).strides hoccupancy hstrides).occupant
  case harmless =>
    rintro history store q ⟨hand, events, hand', hhand, rfl, hstrides⟩ hq rfl hn
    have hsteady := Traced.steady (V := V) (X := X) r (q.issued, q.slot)
    have ht : Traced r (q.issued, q.slot) last.history last.store hand := by
      obtain rfl | rfl := hhand
      · exact htraced q.issued
      · exact hsteady.stop (htraced q.issued)
    have hv := Store.view_eq hq
    exact Store.drop_of_not_held hv ((hsteady.strides ht hstrides).not_held hv rfl hn)

open Booking in
/-- The second request of a booking, while another description with the same store is polled. -/
theorem booking_dispatches :
    let store : Store Instruction Answer Unit :=
      [.newSlot, .act 0 (.request (.read demo.date))].foldl Deed.apply (Store.fresh ())
    let last := (start Sequential.language (.described (tryAccept demo.capacity demo.request))
      demo.house store).play Sequential.language .default House.handler
        [.own, .other (.act 0 (.poll 0)), .own, .own]
    store.slots.size ≤ 1 ∧ last.store.requests[2]? = some ⟨⟨.read demo.date, 2⟩, 1, none, some 2, true⟩ ∧
      last.Dispatches Sequential.language .default House.handler 2 1 := by
  intro store last
  have hk : store.slots.size ≤ 1 := Nat.le_refl 1
  have hq : last.store.requests[2]? = some ⟨⟨.read demo.date, 2⟩, 1, none, some 2, true⟩ := by
    decide +kernel
  refine ⟨hk, hq, play_dispatches Sequential.language .default House.handler _ demo.house ()
    [.newSlot, .act 0 (.request (.read demo.date))] [.own, .other (.act 0 (.poll 0)), .own, .own] 2 1
    hk ?_⟩
  simp

end Scene

end Trampoline
