import Trampoline.Proofs.Ensemble.Frames

/-!
One description in two stores. The requests that it has made in the one stand as those that it has made in
the other, though their numbers differ, as do their cells, their tickets and the number of the slot. This
stays so as long as the same is done to both, and nothing to either of them by anybody else.
-/
namespace Trampoline

variable {I V X : Type}

/-- Requests of one store with their twins in another. -/
abbrev Names :=
  List (Nat × Nat)

/-- Two requests that have come equally far. -/
inductive Standing.Alike : Standing → Standing → Prop
  | waiting : Alike .waiting .waiting
  | issued (t t' : Nat) : Alike (.issued t) (.issued t')
  | dropped : Alike .dropped .dropped

/-- Two requests for the same instruction that stand alike. -/
structure View.Twin (k k' : Nat) (v v' : View I V) : Prop where
  slot : v.request.slot = k
  slot' : v'.request.slot = k'
  instruction : v.request.issued.instruction = v'.request.issued.instruction
  standing : v.request.standing.Alike v'.request.standing
  held : v.held = v'.held
  cell : v.cell = v'.cell

namespace View.Twin

variable {k k' : Nat} {v v' : View I V}

/-- Twins are answered alike. -/
theorem poll (h : v.Twin k k' v') (taken : Bool) (t t' : Nat) :
    (v.poll taken t).1 = (v'.poll taken t').1 ∧ (v.poll taken t).2.Twin k k' (v'.poll taken t').2 := by
  obtain ⟨hk, hk', hi, hs, hh, hc⟩ := id h
  generalize hw : v.request.standing = standing, hw' : v'.request.standing = standing' at hs
  cases hs with
  | dropped => simpa only [View.poll, hw, hw', true_and] using h
  | waiting =>
    cases taken with
    | true => simpa only [View.poll, hw, hw', true_and] using h
    | false =>
      simp only [View.poll, hw, hw', true_and]
      refine ⟨hk, hk', hi, ?_, rfl, hc⟩
      rw [Request.standing_ticketed_of_waiting hw, Request.standing_ticketed_of_waiting hw']
      exact .issued t t'
  | issued n n' =>
    cases hv : v.held with
    | true => simpa only [View.poll, hw, hw', hv, ← hh, true_and] using h
    | false =>
      simp only [View.poll, hw, hw', hv, ← hh, hc, true_and]
      exact ⟨hk, hk', hi, h.standing, rfl, rfl⟩

theorem drop (h : v.Twin k k' v') : v.drop.Twin k k' v'.drop :=
  ⟨h.slot, h.slot', h.instruction, .dropped, rfl, h.cell⟩

end View.Twin

namespace Store

variable {store store' : Store I V X} {names : Names} {k k' r r' : Nat}

theorem exists_view_of_origin {o : Issued I × Nat} (ho : store.origins[r]? = some o) :
    ∃ v, store.view r = some v ∧ v.request.issued = o.1 ∧ v.request.slot = o.2 := by
  rw [origins, Array.getElem?_map, Option.map_eq_some_iff] at ho
  obtain ⟨q, hq, rfl⟩ := ho
  exact ⟨_, view_eq hq, rfl, rfl⟩

/-- All requests for slot number `k` have a twin for slot number `k'` of the other store, and the other
way round. -/
structure Mirror (names : Names) (k k' : Nat) (store store' : Store I V X) : Prop where
  coherent : store.Coherent
  coherent' : store'.Coherent
  slot_lt : k < store.slots.size
  slot_lt' : k' < store'.slots.size
  inj : ∀ {r s s' : Nat}, (r, s) ∈ names → (r, s') ∈ names → s = s'
  inj' : ∀ {r r' s : Nat}, (r, s) ∈ names → (r', s) ∈ names → r = r'
  known : ∀ {r : Nat} {i : Issued I}, store.origins[r]? = some (i, k) → ∃ s, (r, s) ∈ names
  known' : ∀ {s : Nat} {i : Issued I}, store'.origins[s]? = some (i, k') → ∃ r, (r, s) ∈ names
  twins : ∀ {r s : Nat}, (r, s) ∈ names →
    ∃ v w, store.view r = some v ∧ store'.view s = some w ∧ v.Twin k k' w

/-- Two instructions whose requests are twins. -/
def Paired (names : Names) (k k' : Nat) (store store' : Store I V X)
    (i i' : Issued I) : Prop :=
  ∃ r s, (r, s) ∈ names ∧ store.origins[r]? = some (i, k) ∧ store'.origins[s]? = some (i', k')

namespace Mirror

variable {next next' : Store I V X} {i i' : Issued I}

/-- No request has been made yet. -/
theorem start (hc : store.Coherent) (hc' : store'.Coherent) :
    Mirror [] store.slots.size store'.slots.size store.newSlot.2 store'.newSlot.2 := by
  refine ⟨hc.newSlot, hc'.newSlot, by simp [newSlot], by simp [newSlot], nofun, nofun,
    fun ho => ?_, fun ho => ?_, nofun⟩
  · obtain ⟨v, hv, _, hk⟩ := exists_view_of_origin ho
    rw [view_newSlot] at hv
    exact absurd (hc.slot_lt (request_of_view hv)) (hk ▸ Nat.lt_irrefl _)
  · obtain ⟨v, hv, _, hk⟩ := exists_view_of_origin ho
    rw [view_newSlot] at hv
    exact absurd (hc'.slot_lt (request_of_view hv)) (hk ▸ Nat.lt_irrefl _)

/-- What others do, if they leave the slot alone. -/
theorem untouched (h : Mirror names k k' store store') (hu : Untouched k store next) :
    Mirror names k k' next store' := by
  refine { h with
    coherent := hu.coherent
    slot_lt := Nat.lt_of_lt_of_le h.slot_lt hu.slots
    known := fun ho => ?_
    twins := fun hm => ?_ }
  · obtain ⟨v, hv, hi, hk⟩ := exists_view_of_origin ho
    have ho' := origins_of_some (request_of_view ((hu.view hk).mp hv))
    rw [Request.origin, hi, hk] at ho'
    exact h.known ho'
  · obtain ⟨v, w, hv, hw, ht⟩ := h.twins hm
    exact ⟨v, w, (hu.view ht.slot).mpr hv, hw, ht⟩

theorem occupies_iff (h : Mirror names k k' store store') {s : Nat} (hm : (r, s) ∈ names) :
    store.Occupies k r ↔ store'.Occupies k' s := by
  obtain ⟨v, w, hv, hw, ht⟩ := h.twins hm
  rw [Occupies, Occupies, hv, hw]
  simp only [Option.some.injEq, exists_eq_left', ht.slot, ht.slot', ht.held]

theorem known_of_occupies (h : Mirror names k k' store store') (ho : store.Occupies k r) :
    ∃ s, (r, s) ∈ names := by
  obtain ⟨v, hv, _, rfl⟩ := ho
  exact h.known (origins_of_some (request_of_view hv))

theorem taken (h : Mirror names k k' store store') : store.taken k = store'.taken k' := by
  rw [Bool.eq_iff_iff, taken_iff_occupies h.coherent, taken_iff_occupies h.coherent']
  constructor
  · rintro ⟨r, ho⟩
    obtain ⟨s, hm⟩ := h.known_of_occupies ho
    exact ⟨s, (h.occupies_iff hm).mp ho⟩
  · rintro ⟨s, ho⟩
    have ⟨w, hw, _, hk⟩ := ho
    subst hk
    obtain ⟨r, hm⟩ := h.known' (origins_of_some (request_of_view hw))
    exact ⟨r, (h.occupies_iff hm).mpr ho⟩

/-- No request is made, and all that there are stand alike afterwards. -/
private theorem update (h : Mirror names k k' store store') (hc : next.Coherent)
    (hc' : next'.Coherent) (hz : next.slots.size = store.slots.size)
    (hz' : next'.slots.size = store'.slots.size) (ho : next.origins = store.origins)
    (ho' : next'.origins = store'.origins)
    (ht : ∀ {r s : Nat} {v w : View I V}, (r, s) ∈ names → store.view r = some v →
      store'.view s = some w → v.Twin k k' w →
      ∃ v w, next.view r = some v ∧ next'.view s = some w ∧ v.Twin k k' w) :
    Mirror names k k' next next' where
  coherent := hc
  coherent' := hc'
  slot_lt := hz ▸ h.slot_lt
  slot_lt' := hz' ▸ h.slot_lt'
  inj := h.inj
  inj' := h.inj'
  known := ho ▸ h.known
  known' := ho' ▸ h.known'
  twins hm := by
    obtain ⟨v, w, hv, hw, htw⟩ := h.twins hm
    exact ht hm hv hw htw

/-- Twins are polled, and answered alike. -/
theorem poll (h : Mirror names k k' store store') {s : Nat} (hm : (r, s) ∈ names) :
    (store.poll r).1 = (store'.poll s).1 ∧
      Mirror names k k' (store.poll r).2 (store'.poll s).2 := by
  obtain ⟨v, w, hv, hw, ht⟩ := h.twins hm
  obtain ⟨ha, hv'⟩ := poll_eq_view h.coherent hv
  obtain ⟨ha', hw'⟩ := poll_eq_view h.coherent' hw
  rw [ht.slot] at ha hv'
  rw [ht.slot', ← h.taken] at ha' hw'
  have hp := ht.poll (store.taken k) ((store.slotAt k).issued + 1) ((store'.slotAt k').issued + 1)
  refine ⟨ha.trans (hp.1.trans ha'.symm), h.update (h.coherent.poll r) (h.coherent'.poll s)
    (store.size_slots_poll r) (store'.size_slots_poll s) (store.origins_poll r)
    (store'.origins_poll s) fun {r' s' v₁ w₁} hm' hv₁ hw₁ ht₁ => ?_⟩
  by_cases hr : r' = r
  · subst hr
    obtain rfl := h.inj hm hm'
    exact ⟨_, _, hv', hw', hp.2⟩
  · have hs : s' ≠ s := fun hs => hr (h.inj' hm' (hs ▸ hm))
    exact ⟨v₁, w₁, (view_poll_of_ne h.coherent hr).trans hv₁,
      (view_poll_of_ne h.coherent' hs).trans hw₁, ht₁⟩

theorem drop (h : Mirror names k k' store store') {s : Nat} (hm : (r, s) ∈ names) :
    Mirror names k k' (store.drop r) (store'.drop s) := by
  refine h.update (h.coherent.drop r) (h.coherent'.drop s) (store.size_slots_drop r)
    (store'.size_slots_drop s) (store.origins_drop r) (store'.origins_drop s)
    fun {r' s' v w} hm' hv hw ht => ?_
  by_cases hr : r' = r
  · subst hr
    obtain rfl := h.inj hm hm'
    exact ⟨_, _, view_drop_self hv, view_drop_self hw, ht.drop⟩
  · have hs : s' ≠ s := fun hs => hr (h.inj' hm' (hs ▸ hm))
    exact ⟨v, w, (view_drop_of_ne h.coherent hr).trans hv,
      (view_drop_of_ne h.coherent' hs).trans hw, ht⟩

/-- Something is shared, which no request takes notice of. -/
theorem share (h : Mirror names k k' store store') (x x' : X) :
    Mirror names k k' { store with shared := x } { store' with shared := x' } :=
  { h with coherent := h.coherent.share x, coherent' := h.coherent'.share x' }

/-- Both make a request for the same instruction. -/
theorem request (h : Mirror names k k' store store') (i : I) :
    Mirror ((store.requests.size, store'.requests.size) :: names) k k' (store.request k i).2
      (store'.request k' i).2 := by
  have lt {r s : Nat} (hm : (r, s) ∈ names) :
      r < store.requests.size ∧ s < store'.requests.size := by
    obtain ⟨v, w, hv, hw, _⟩ := h.twins hm
    exact ⟨view_lt hv, view_lt hw⟩
  have hz : store.origins.size = store.requests.size := Array.size_map
  have hz' : store'.origins.size = store'.requests.size := Array.size_map
  constructor
  case coherent => exact h.coherent.request h.slot_lt i
  case coherent' => exact h.coherent'.request h.slot_lt' i
  case slot_lt => exact h.slot_lt
  case slot_lt' => exact h.slot_lt'
  case inj =>
    intro r s s' hm hm'
    rcases List.mem_cons.mp hm with he | hm <;> rcases List.mem_cons.mp hm' with he' | hm'
    · rw [Prod.mk.injEq] at he he'
      exact he.2.trans he'.2.symm
    · exact absurd (lt hm').1 (by simp_all)
    · exact absurd (lt hm).1 (by simp_all)
    · exact h.inj hm hm'
  case inj' =>
    intro r r' s hm hm'
    rcases List.mem_cons.mp hm with he | hm <;> rcases List.mem_cons.mp hm' with he' | hm'
    · rw [Prod.mk.injEq] at he he'
      exact he.1.trans he'.1.symm
    · exact absurd (lt hm').2 (by simp_all)
    · exact absurd (lt hm).2 (by simp_all)
    · exact h.inj' hm hm'
  case known =>
    intro r j ho
    rw [origins_request, Array.getElem?_push, hz] at ho
    split at ho
    · subst r
      exact ⟨_, List.mem_cons_self⟩
    · obtain ⟨s, hm⟩ := h.known ho
      exact ⟨s, List.mem_cons_of_mem _ hm⟩
  case known' =>
    intro s j ho
    rw [origins_request, Array.getElem?_push, hz'] at ho
    split at ho
    · subst s
      exact ⟨_, List.mem_cons_self⟩
    · obtain ⟨r, hm⟩ := h.known' ho
      exact ⟨r, List.mem_cons_of_mem _ hm⟩
  case twins =>
    intro r s hm
    rcases List.mem_cons.mp hm with he | hm
    · cases he
      exact ⟨_, _, view_request_self store k i, view_request_self store' k' i, rfl, rfl, rfl,
        .waiting, rfl, rfl⟩
    · obtain ⟨v, w, hv, hw, ht⟩ := h.twins hm
      obtain ⟨hr, hs⟩ := lt hm
      exact ⟨v, w, (view_request_of_ne h.coherent k i (Nat.ne_of_lt hr)).trans hv,
        (view_request_of_ne h.coherent' k' i (Nat.ne_of_lt hs)).trans hw, ht⟩

/-- Both resumptions come to their end. -/
theorem collect (h : Mirror names k k' store store') :
    Mirror names k k' (store.collect k).2 (store'.collect k').2 := by
  refine h.update (h.coherent.collect k) (h.coherent'.collect k') (store.size_slots_collect k)
    (store'.size_slots_collect k') (store.origins_collect k) (store'.origins_collect k')
    fun {r s v w} _ hv hw ht => ?_
  rw [view_collect, view_collect, hv, hw]
  refine ⟨_, _, rfl, rfl, ht.slot, ht.slot', ht.instruction, ht.standing, ?_, ht.cell⟩
  simp [ht.slot, ht.slot']

/-- What they find in their slots. -/
theorem collected (h : Mirror names k k' store store') :
    ((store.collect k).1 = none ∧ (store'.collect k').1 = none) ∨
      ∃ i i', (store.collect k).1 = some i ∧ (store'.collect k').1 = some i' ∧
        Paired names k k' store store' i i' := by
  have ht := h.taken
  rw [Store.taken, Store.taken] at ht
  unfold Store.collect
  cases hp : (store.slotAt k).pending with
  | none =>
    rw [hp, Option.isSome_none, eq_comm, Option.isSome_eq_false_iff, Option.isNone_iff_eq_none] at ht
    exact .inl ⟨rfl, by rw [ht]⟩
  | some entry =>
    obtain ⟨n, i⟩ := entry
    obtain ⟨r, v, hv, hh, hk, rfl⟩ := exists_held h.coherent hp
    obtain ⟨s, hm⟩ := h.known_of_occupies ⟨v, hv, hh, hk⟩
    obtain ⟨v', w, hv', hw, htw⟩ := h.twins hm
    obtain rfl := Option.some.inj (hv.symm.trans hv')
    obtain ⟨n', hp'⟩ := (held_iff h.coherent' hw).mp (htw.held ▸ hh)
    rw [htw.slot'] at hp'
    simp only [hp']
    refine .inr ⟨_, _, rfl, rfl, r, s, hm, ?_, ?_⟩
    · rw [origins_of_some (request_of_view hv), Request.origin, hk]
    · rw [origins_of_some (request_of_view hw), Request.origin, htw.slot']

end Mirror

namespace Paired

variable {next next' : Store I V X} {i i' : Issued I}

theorem recalled (h : Paired names k k' store store' i i') (hr : store.Recalls next)
    (hr' : store'.Recalls next') : Paired names k k' next next' i i' := by
  obtain ⟨r, s, hm, ho, ho'⟩ := h
  exact ⟨r, s, hm, hr ho, hr' ho'⟩

/-- The handler is called for the same, and finds the same in the cell. -/
theorem alike (h : Paired names k k' store store' i i') (hm : Mirror names k k' store store') :
    i.instruction = i'.instruction ∧ store.cellAt i.cell = store'.cellAt i'.cell := by
  obtain ⟨r, s, hn, ho, ho'⟩ := h
  obtain ⟨v, hv, rfl, _⟩ := exists_view_of_origin ho
  obtain ⟨w, hw, rfl, _⟩ := exists_view_of_origin ho'
  obtain ⟨v', w', hv', hw', ht⟩ := hm.twins hn
  obtain rfl := Option.some.inj (hv.symm.trans hv')
  obtain rfl := Option.some.inj (hw.symm.trans hw')
  exact ⟨ht.instruction, by rw [cell_of_view hv, cell_of_view hw, ht.cell]⟩

/-- The same is put into both cells. -/
theorem putCell (h : Paired names k k' store store' i i') (hm : Mirror names k k' store store')
    (cell : Cell V) :
    Mirror names k k' (store.putCell i.cell cell) (store'.putCell i'.cell cell) := by
  obtain ⟨r, s, hn, ho, ho'⟩ := h
  obtain ⟨v₀, hv₀, rfl, _⟩ := exists_view_of_origin ho
  obtain ⟨w₀, hw₀, rfl, _⟩ := exists_view_of_origin ho'
  refine hm.update (hm.coherent.putCell _ _) (hm.coherent'.putCell _ _) rfl rfl rfl rfl
    fun {r' s' v w} hn' hv hw ht => ?_
  rw [view_putCell hm.coherent, view_putCell hm.coherent', hv, hw, Option.map_some, Option.map_some]
  -- The cell is the one of a request exactly if it is the one of its twin.
  have hcell : v.request.issued.cell = v₀.request.issued.cell ↔
      w.request.issued.cell = w₀.request.issued.cell := by
    constructor
    · intro hc
      obtain rfl := hm.coherent.cell_inj (request_of_view hv) (request_of_view hv₀) hc
      obtain rfl := hm.inj hn hn'
      rw [Option.some.inj (hw.symm.trans hw₀)]
    · intro hc
      obtain rfl := hm.coherent'.cell_inj (request_of_view hw) (request_of_view hw₀) hc
      obtain rfl := hm.inj' hn hn'
      rw [Option.some.inj (hv.symm.trans hv₀)]
  refine ⟨_, _, rfl, rfl, ?_⟩
  by_cases hc : v.request.issued.cell = v₀.request.issued.cell
  · rw [if_pos hc, if_pos (hcell.mp hc)]
    exact ⟨ht.slot, ht.slot', ht.instruction, ht.standing, ht.held, rfl⟩
  · rw [if_neg hc, if_neg fun h => hc (hcell.mpr h)]
    exact ht

end Paired

end Store

end Trampoline
