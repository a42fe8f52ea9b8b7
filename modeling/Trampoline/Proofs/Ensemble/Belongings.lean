import Trampoline.Proofs.Dispatch.Occupancy
import Trampoline.Proofs.Ensemble.Paces

/-!
What belongs to a description: the instructions that were requested for its slot. Its run has nothing else
in hand and calls its handler for nothing else, and it makes no requests for other slots. To everybody
else the strides of the run are deeds of others.
-/
namespace Trampoline

variable {I V X : Type}

/-- The instruction was requested for slot number `k`. -/
def Store.Owns (store : Store I V X) (k : Nat) (i : Issued I) : Prop :=
  ∃ r : Nat, store.origins[r]? = some (i, k)

/-- What happens has to do with no slot but number `k`, as far as it is not about a request of whatever
description. -/
def Happening.Belongs (k : Nat) (store : Store I V X) : Happening I V → Prop
  | opened j => j = k
  | requested r => ∃ i : Issued I, store.origins[r]? = some (i, k)
  | collected j _ _ => j = k
  | called i => store.Owns k i
  | _ => True

theorem Store.Owns.recall {store store' : Store I V X} {k : Nat} {i : Issued I}
    (h : store.Owns k i) (hr : store.Recalls store') : store'.Owns k i := by
  obtain ⟨r, ho⟩ := h
  exact ⟨r, hr ho⟩

theorem Happening.Belongs.recall {store store' : Store I V X} {k : Nat} {e : Happening I V}
    (h : e.Belongs k store) (hr : store.Recalls store') : e.Belongs k store' := by
  cases e with
  | requested r =>
    obtain ⟨i, ho⟩ := h
    exact ⟨i, hr ho⟩
  | called i => exact Store.Owns.recall h hr
  | opened j => exact h
  | collected j suspended found => exact h
  | _ => trivial

/-- What the run of a description may do to a store, given the slot that it has afterwards. -/
structure Belonging (slot : Option Nat) (store : Store I V X) (events : List (Happening I V))
    (hand : Hand I) (store' : Store I V X) : Prop where
  coherent : store'.Coherent
  slots : store.slots.size ≤ store'.slots.size
  recalls : store.Recalls store'
  held : ∀ {i : Issued I}, hand.issued? = some i → ∃ k, slot = some k ∧ store'.Owns k i
  told : ∀ {e : Happening I V}, e ∈ events → ∃ k, slot = some k ∧ e.Belongs k store'
  made : ∀ {r : Nat} {o : Issued I × Nat}, store'.origins[r]? = some o →
    store.origins[r]? = some o ∨ (slot = some o.2 ∧ .requested r ∈ events)

namespace Belonging

variable {slot : Option Nat} {k : Nat} {store store' store'' : Store I V X}
  {events more : List (Happening I V)} {hand hand' : Hand I}

theorem refl (hc : store.Coherent)
    (hh : ∀ {i : Issued I}, hand.issued? = some i → ∃ k, slot = some k ∧ store.Owns k i) :
    Belonging slot store ([] : List (Happening I V)) hand store :=
  ⟨hc, Nat.le_refl _, id, hh, nofun, .inl⟩

theorem trans (h : Belonging slot store events hand store')
    (h' : Belonging slot store' more hand' store'') :
    Belonging slot store (events ++ more) hand' store'' where
  coherent := h'.coherent
  slots := Nat.le_trans h.slots h'.slots
  recalls ho := h'.recalls (h.recalls ho)
  held := h'.held
  told he := by
    rcases List.mem_append.mp he with he | he
    · obtain ⟨k, hk, hb⟩ := h.told he
      exact ⟨k, hk, hb.recall h'.recalls⟩
    · exact h'.told he
  made ho := by
    obtain ho | ⟨hk, hm⟩ := h'.made ho
    · exact (h.made ho).imp id fun hm => ⟨hm.1, List.mem_append_left _ hm.2⟩
    · exact .inr ⟨hk, List.mem_append_right _ hm⟩

theorem owns (h : Belonging (some k) store events hand store') {i : Issued I}
    (hi : hand.issued? = some i) : store'.Owns k i := by
  obtain ⟨_, ⟨⟩, ho⟩ := h.held hi
  exact ho

/-- No request is made. -/
private theorem quiet (hc : store'.Coherent) (hs : store'.slots.size = store.slots.size)
    (ho : store'.origins = store.origins)
    (hh : ∀ {i : Issued I}, hand.issued? = some i → store.Owns k i)
    (he : ∀ {e : Happening I V}, e ∈ events → e.Belongs k store') :
    Belonging (some k) store events hand store' where
  coherent := hc
  slots := Nat.le_of_eq hs.symm
  recalls := ho ▸ id
  held hi := ⟨k, rfl, (hh hi).recall (ho ▸ id)⟩
  told hm := ⟨k, rfl, he hm⟩
  made := ho ▸ .inl

private theorem act (hc : store.Coherent) (hk : k < store.slots.size) (action : Action I X)
    (hh : ∀ {i : Issued I}, hand.issued? = some i → store.Owns k i) :
    Belonging (some k) store (store.acting action) hand (store.act k action).2 := by
  cases action with
  | request i =>
    have hr : store.Recalls (store.request k i).2 := fun ho => Store.origins_act ho k (.request i)
    have hz : store.origins.size = store.requests.size := Array.size_map
    refine ⟨hc.request hk i, Nat.le_refl _, hr, fun hi => ⟨k, rfl, (hh hi).recall hr⟩, ?_, ?_⟩
    · intro e he
      obtain rfl := List.mem_singleton.mp he
      refine ⟨k, rfl, ⟨i, store.cells.size⟩, ?_⟩
      change (store.request k i).2.origins[_]? = _
      rw [Store.origins_request, Array.getElem?_push, if_pos hz.symm]
    · intro r o ho
      change (store.request k i).2.origins[r]? = _ at ho
      rw [Store.origins_request, Array.getElem?_push] at ho
      split at ho
      · cases ho
        exact .inr ⟨rfl, by simp_all [Store.acting]⟩
      · exact .inl ho
  | poll r =>
    refine quiet (hc.poll r) (store.size_slots_poll r) (store.origins_poll r) hh fun he => ?_
    obtain rfl | ⟨slot, rfl⟩ := Store.mem_polling he <;> trivial
  | drop r =>
    refine quiet (hc.drop r) (store.size_slots_drop r) (store.origins_drop r) hh fun he => ?_
    obtain rfl | ⟨slot, rfl⟩ := Store.mem_dropping he <;> trivial
  | look => exact quiet hc rfl rfl hh fun he => absurd he List.not_mem_nil
  | share x => exact quiet (hc.share x) rfl rfl hh fun he => absurd he List.not_mem_nil

/-- What is collected was requested for the slot. -/
private theorem collect (hc : store.Coherent) (suspended : Bool) :
    Belonging (some k) store [.collected k suspended (store.collect k).1]
      (.resumed suspended (store.collect k).1) (store.collect k).2 where
  coherent := hc.collect k
  slots := Nat.le_of_eq (store.size_slots_collect k).symm
  recalls := (store.origins_collect k).symm ▸ id
  held {i} hi := by
    have hf : (store.collect k).1 = some i := by
      cases suspended with
      | false => cases hi
      | true =>
        cases hf : (store.collect k).1 with
        | none =>
          rw [hf] at hi
          cases hi
        | some j =>
          rw [hf] at hi
          exact hi
    obtain ⟨n, hp⟩ := Store.pending_of_collect hf
    obtain ⟨_, r, q, hq, rfl, _, rfl⟩ := hc.holder hp
    exact ⟨q.slot, rfl, r, (store.origins_collect _).symm ▸ Store.origins_of_some hq⟩
  told he := by
    obtain rfl := List.mem_singleton.mp he
    exact ⟨k, rfl, rfl⟩
  made := (store.origins_collect k) ▸ .inl

end Belonging

section Strides

variable {slot slot' : Option Nat} {k : Nat} {store store' : Store I V X}
  {events : List (Happening I V)} {hand hand' : Hand I}

theorem Pace.belonging (h : Pace k hand store events hand' store') (hc : store.Coherent)
    (hh : ∀ {i : Issued I}, hand.issued? = some i → store.Owns k i) :
    Belonging (some k) store events hand' store' := by
  cases h with
  | act action hk => exact .act hc hk action hh
  | collect suspended => exact .collect hc suspended
  | called i =>
    refine .quiet hc rfl rfl hh fun he => ?_
    obtain rfl := List.mem_singleton.mp he
    exact hh rfl
  | leave i cell => exact .quiet (hc.putCell _ _) rfl rfl hh nofun
  | answered i value cell =>
    refine .quiet (hc.putCell _ _) rfl rfl nofun fun he => ?_
    obtain rfl := List.mem_singleton.mp he
    trivial
  | rejected i value =>
    refine .quiet hc rfl rfl nofun fun he => ?_
    obtain rfl := List.mem_singleton.mp he
    trivial
  | refused i failure =>
    refine .quiet hc rfl rfl nofun fun he => ?_
    obtain rfl := List.mem_singleton.mp he
    trivial

theorem Paces.belonging (h : Paces k hand store events hand' store') (hc : store.Coherent)
    (hh : ∀ {i : Issued I}, hand.issued? = some i → store.Owns k i) :
    Belonging (some k) store events hand' store' := by
  induction h with
  | refl => exact .refl hc fun hi => ⟨k, rfl, hh hi⟩
  | tail _ pace ih =>
    have h := ih hc hh
    exact h.trans (pace.belonging h.coherent h.owns)

theorem Leg.belonging (h : Leg slot hand store events slot' hand' store') (hc : store.Coherent)
    (hh : ∀ {i : Issued I}, hand.issued? = some i → ∃ k, slot = some k ∧ store.Owns k i) :
    Belonging slot' store events hand' store' := by
  have own {k : Nat} (hs : slot = some k) {i : Issued I} (hi : hand.issued? = some i) :
      store.Owns k i := by
    obtain ⟨j, hj, ho⟩ := hh hi
    cases hs.symm.trans hj
    exact ho
  cases h with
  | idle => exact .refl hc nofun
  | gone hp => exact hp.belonging hc (own rfl)
  | stopped hp => exact hp.belonging hc nofun
  | begun hp =>
    have hn : Belonging (some store.slots.size) store
        ([.opened store.slots.size] : List (Happening I V)) .free store.newSlot.2 :=
      { coherent := hc.newSlot
        slots := by simp [Store.newSlot]
        recalls := id
        held := nofun
        told := fun he => by
          obtain rfl := List.mem_singleton.mp he
          exact ⟨_, rfl, rfl⟩
        made := .inl }
    exact hn.trans (hp.belonging hc.newSlot nofun)

/-- A slot is given once, and is a new one. -/
theorem Leg.given (h : Leg slot hand store events slot' hand' store') (hc : store.Coherent) :
    slot' = slot ∨ (slot = none ∧ slot' = some store.slots.size ∧
      .opened store.slots.size ∈ events ∧ store.slots.size < store'.slots.size) := by
  cases h with
  | idle => exact .inl rfl
  | gone _ => exact .inl rfl
  | stopped _ => exact .inl rfl
  | begun hp =>
    refine .inr ⟨rfl, rfl, List.mem_cons_self, ?_⟩
    have hs := (hp.belonging hc.newSlot nofun).slots
    simp only [Store.newSlot, Array.size_push] at hs
    exact hs

end Strides

/-! ### As others see it -/

/-- What happens in a number of deeds of others. -/
def Deed.telling (store : Store I V X) : List (Deed I V X) → List (Happening I V)
  | [] => []
  | deed :: rest => deed.happenings store ++ telling (deed.apply store) rest

theorem Deed.telling_append (store : Store I V X) (deeds more : List (Deed I V X)) :
    telling store (deeds ++ more) =
      telling store deeds ++ telling (deeds.foldl Deed.apply store) more := by
  induction deeds generalizing store with
  | nil => rfl
  | cons deed rest ih =>
    rw [List.cons_append, telling, telling, ih, List.append_assoc, List.foldl_cons]

/-- The deeds of others, who collect from no slot but one, come to the same as a run. -/
def Store.DoneTo (slot : Option Nat) (store : Store I V X) (events : List (Happening I V))
    (store' : Store I V X) : Prop :=
  ∃ deeds : List (Deed I V X), deeds.foldl Deed.apply store = store' ∧
    Deed.telling store deeds = events.filter Happening.isAction ∧
    ∀ j, .collect j ∈ deeds → slot = some j

section Strides

variable {slot slot' : Option Nat} {k : Nat} {store store' store'' : Store I V X}
  {events more : List (Happening I V)} {hand hand' : Hand I}

theorem Store.DoneTo.refl (store : Store I V X) :
    store.DoneTo slot ([] : List (Happening I V)) store :=
  ⟨[], rfl, rfl, nofun⟩

theorem Store.DoneTo.trans (h : store.DoneTo slot events store')
    (h' : store'.DoneTo slot more store'') : store.DoneTo slot (events ++ more) store'' := by
  obtain ⟨deeds, rfl, ht, hj⟩ := h
  obtain ⟨deeds', rfl, ht', hj'⟩ := h'
  refine ⟨deeds ++ deeds', List.foldl_append, ?_, fun j hm => ?_⟩
  · rw [Deed.telling_append, ht, ht', List.filter_append]
  · exact (List.mem_append.mp hm).elim (hj j) (hj' j)

/-- A single deed. -/
private theorem Store.DoneTo.deed (deed : Deed I V X)
    (he : deed.happenings store = events.filter Happening.isAction)
    (hj : ∀ j, deed = .collect j → slot = some j) :
    store.DoneTo slot events (deed.apply store) := by
  refine ⟨[deed], rfl, (List.append_nil _).trans he, fun j hm => hj j ?_⟩
  exact (List.mem_singleton.mp hm).symm

theorem Pace.doneTo (h : Pace k hand store events hand' store') :
    store.DoneTo (some k) events store' := by
  cases h with
  | act action hk =>
    have ha : (store.acting action).filter Happening.isAction = store.acting action :=
      List.filter_eq_self.mpr fun _ => Store.isAction_of_mem_acting
    have hd : ((Deed.act k action).apply store) = (store.act k action).2 := if_pos hk
    exact hd ▸ .deed (.act k action) (ha.symm ▸ if_pos hk) nofun
  | collect suspended =>
    exact .deed (.collect k) rfl fun j hj => by
      cases hj
      rfl
  | called i => exact ⟨[], rfl, rfl, nofun⟩
  | leave i cell => exact .deed (.putCell i.cell cell) rfl nofun
  | answered i value cell => exact .deed (.putCell i.cell cell) rfl nofun
  | rejected i value => exact ⟨[], rfl, rfl, nofun⟩
  | refused i failure => exact ⟨[], rfl, rfl, nofun⟩

theorem Paces.doneTo (h : Paces k hand store events hand' store') :
    store.DoneTo (some k) events store' := by
  induction h with
  | refl => exact .refl _
  | tail _ pace ih => exact ih.trans pace.doneTo

theorem Leg.doneTo (h : Leg slot hand store events slot' hand' store') :
    store.DoneTo slot' events store' := by
  cases h with
  | idle => exact .refl _
  | gone hp => exact hp.doneTo
  | stopped hp => exact hp.doneTo
  | begun hp =>
    have hn : store.DoneTo (some store.slots.size)
        ([.opened store.slots.size] : List (Happening I V)) store.newSlot.2 :=
      .deed .newSlot rfl nofun
    exact hn.trans hp.doneTo

theorem Stage.Sound.deeds {T P S : Type} {stage : Stage I T (Thunk V P S)} (h : stage.Sound store)
    (deeds : List (Deed I V X)) : stage.Sound (deeds.foldl Deed.apply store) := by
  induction deeds generalizing store with
  | nil => exact h
  | cons deed rest ih => exact ih (h.deed deed)

theorem Steady.deeds {allowed : Deed I V X → Prop}
    {inv : List (Happening I V) → Store I V X → Hand I → Prop} (hi : Steady allowed inv)
    {history : List (Happening I V)} (h : inv history store hand) {deeds : List (Deed I V X)}
    (ha : ∀ deed ∈ deeds, allowed deed) :
    inv (history ++ Deed.telling store deeds) (deeds.foldl Deed.apply store) hand := by
  induction deeds generalizing history store with
  | nil => rwa [Deed.telling, List.append_nil]
  | cons deed rest ih =>
    rw [Deed.telling, ← List.append_assoc]
    exact ih (hi.deed deed (ha deed List.mem_cons_self) h) fun d hd => ha d (List.mem_cons_of_mem _ hd)

end Strides

end Trampoline
