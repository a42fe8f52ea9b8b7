import Trampoline.Proofs.Store.View
import Trampoline.Proofs.Suspension

/-!
A request from the first poll to the last. It waits while the slot is taken, holds the slot once it was
polled while the slot was free, and is answered when its instruction was collected and the cell was
filled. What is done to one request leaves all others as they are.
-/
namespace Trampoline.Store

variable {I V X : Type} {store store' store'' : Store I V X} {k r : Nat} {i : I}

/-! ### What was not touched -/

/-- Of the requests there were, none but the given ones was touched. -/
structure Frame (mine : List Nat) (store store' : Store I V X) : Prop where
  coherent : store'.Coherent
  slots : store'.slots.size = store.slots.size
  requests : store.requests.size ≤ store'.requests.size
  view : ∀ {r : Nat}, r < store.requests.size → r ∉ mine → store'.view r = store.view r

theorem Frame.refl (hc : store.Coherent) (mine : List Nat) : Frame mine store store :=
  ⟨hc, rfl, Nat.le_refl _, fun _ _ => rfl⟩

/-- What was new in the first half may be touched in the second. -/
theorem Frame.trans {mine mine' : List Nat} (h : Frame mine store store')
    (h' : Frame mine' store' store'')
    (hm : ∀ r ∈ mine', r ∈ mine ∨ store.requests.size ≤ r) : Frame mine store store'' where
  coherent := h'.coherent
  slots := h'.slots.trans h.slots
  requests := Nat.le_trans h.requests h'.requests
  view hr hn := by
    have hn' := fun hr' => (hm _ hr').elim hn (Nat.not_le_of_lt hr)
    rw [h'.view (Nat.lt_of_lt_of_le hr h.requests) hn', h.view hr hn]

theorem Frame.mono {mine mine' : List Nat} (h : Frame mine store store')
    (hm : ∀ r ∈ mine, r ∈ mine') : Frame mine' store store' :=
  ⟨h.coherent, h.slots, h.requests, fun hr hn => h.view hr fun hr' => hn (hm _ hr')⟩

/-- A slot stays taken if the request that holds it is not touched. -/
theorem Frame.taken {mine : List Nat} (h : Frame mine store store') (hc : store.Coherent)
    (hm : ∀ r ∈ mine, ∀ v, store.view r = some v → v.held = false) (ht : store.taken k = true) :
    store'.taken k = true := by
  obtain ⟨⟨n, issued⟩, hp⟩ := Option.isSome_iff_exists.mp ht
  obtain ⟨r, v, hv, hh, rfl, rfl⟩ := exists_held hc hp
  have hr : r ∉ mine := by
    intro hr
    rw [hm r hr v hv] at hh
    cases hh
  obtain ⟨n', hp'⟩ := (held_iff h.coherent ((h.view (view_lt hv) hr).trans hv)).mp hh
  rw [Store.taken, hp']
  rfl

theorem taken_newSlot (store : Store I V X) : store.newSlot.2.taken store.slots.size = false := by
  rw [taken, slotAt_newSlot, slotAt, Array.getD_eq_getD_getElem?,
    Array.getElem?_eq_none (Nat.le_refl _)]
  rfl

theorem frame_request (hc : store.Coherent) (hk : k < store.slots.size) (i : I) :
    Frame [] store (store.request k i).2 where
  coherent := hc.request hk i
  slots := rfl
  requests := by
    rw [request, Array.size_push]
    exact Nat.le_succ _
  view hr _ := view_request_of_ne hc k i (Nat.ne_of_lt hr)

theorem frame_poll (hc : store.Coherent) (r : Nat) : Frame [r] store (store.poll r).2 where
  coherent := hc.poll r
  slots := store.size_slots_poll r
  requests := Nat.le_of_eq (store.size_requests_poll r).symm
  view _ hn := view_poll_of_ne hc fun h => hn (List.mem_singleton.mpr h)

theorem frame_drop (hc : store.Coherent) (r : Nat) : Frame [r] store (store.drop r) where
  coherent := hc.drop r
  slots := store.size_slots_drop r
  requests := Nat.le_of_eq (store.size_requests_drop r).symm
  view _ hn := view_drop_of_ne hc fun h => hn (List.mem_singleton.mpr h)

theorem frame_dropAll (hc : store.Coherent) (rs : List Nat) :
    Frame rs store (store.dropAll rs) := by
  induction rs generalizing store with
  | nil => exact .refl hc []
  | cons r rest ih =>
    have h := frame_drop hc r
    refine (h.mono fun s hs => ?_).trans (ih h.coherent) fun s hs => .inl (List.mem_cons_of_mem r hs)
    exact List.mem_singleton.mp hs ▸ List.mem_cons_self

/-! ### How a request stands -/

/-- A request of a description that has not got into the slot. -/
def Waits (store : Store I V X) (k r : Nat) (i : I) : Prop :=
  ∃ c, store.view r = some ⟨.fresh ⟨i, c⟩ k, false, .empty⟩

/-- A request whose instruction is in the slot. -/
def Holds (store : Store I V X) (k r : Nat) (i : I) : Prop :=
  ∃ c t, store.view r = some ⟨(Request.fresh ⟨i, c⟩ k).ticketed t, true, .empty⟩

/-- A request whose answer lies in its cell. -/
def Answered (store : Store I V X) (k r : Nat) (value : V) : Prop :=
  ∃ issued t, store.view r = some ⟨(Request.fresh issued k).ticketed t, false, .full value⟩

theorem Holds.taken (hc : store.Coherent) (h : store.Holds k r i) : store.taken k = true := by
  obtain ⟨c, t, hv⟩ := h
  obtain ⟨n, hp⟩ := (held_iff hc hv).mp rfl
  change (store.slotAt k).pending = _ at hp
  rw [Store.taken, hp]
  rfl

/-- A slot is held by one request only. -/
theorem held_unique (hc : store.Coherent) {r s : Nat} {v w : View I V} (hv : store.view r = some v)
    (hw : store.view s = some w) (hr : v.held = true) (hs : w.held = true)
    (hk : v.request.slot = w.request.slot) : r = s := by
  obtain ⟨n, hp⟩ := (held_iff hc hv).mp hr
  obtain ⟨m, hq⟩ := (held_iff hc hw).mp hs
  rw [hk, hq] at hp
  have hi : w.request.issued = v.request.issued := congrArg Prod.snd (Option.some.inj hp)
  exact hc.cell_inj (request_of_view hv) (request_of_view hw) (congrArg Issued.cell hi.symm)

theorem waits_request (store : Store I V X) (k : Nat) (i : I) :
    (store.request k i).2.Waits k (store.request k i).1 i :=
  ⟨store.cells.size, view_request_self store k i⟩

/-- A waiting request gets no answer. If the slot is taken it goes on waiting, else it gets the slot. -/
theorem poll_of_waits (hc : store.Coherent) (h : store.Waits k r i) :
    (store.poll r).1 = none ∧ (store.taken k = true → (store.poll r).2 = store) ∧
      (store.taken k = false → (store.poll r).2.Holds k r i) := by
  obtain ⟨c, hv⟩ := h
  have hq : store.requests[r]? = some (.fresh ⟨i, c⟩ k) := request_of_view hv
  by_cases hp : (store.slotAt k).pending = none
  · rw [poll_of_free hq rfl rfl hp, taken, hp]
    have hcell : store.cellAt c = .empty := cell_of_view hv
    refine ⟨rfl, (fun h => by cases h), fun _ => ⟨c, (store.slotAt k).issued + 1, ?_⟩⟩
    rw [← hcell]
    exact view_occupy_self hc hq rfl
  · rw [poll_of_taken hq rfl rfl hp, taken]
    refine ⟨rfl, fun _ => rfl, fun h => ?_⟩
    exact absurd (Option.not_isSome_iff_eq_none.mp (Bool.eq_false_iff.mp h)) hp

/-- An answered request gets the answer, and leaves the slots as they are. -/
theorem poll_of_answered {value : V} (h : store.Answered k r value) :
    (store.poll r).1 = some (.ok value) ∧ (store.poll r).2.slots = store.slots := by
  obtain ⟨issued, t, hv⟩ := h
  have hq : store.requests[r]? = some ((Request.fresh issued k).ticketed t) := request_of_view hv
  have hcell : store.cellAt issued.cell = .full value := cell_of_view hv
  rw [poll_of_issued hq rfl rfl (held_of_view hv)]
  dsimp only [Request.issued_ticketed, Request.issued_fresh]
  rw [hcell]
  exact ⟨rfl, rfl⟩

/-! ### Drops -/

/-- A slot is still taken after a drop unless it was the request's own. -/
theorem taken_drop_of_view (k : Nat) {v : View I V} (hv : store.view r = some v) :
    (store.drop r).taken k =
      (store.taken k && !(v.held && decide (v.request.slot = k))) := by
  rw [taken, slotAt_drop (request_of_view hv), held_of_view hv, taken]
  cases v.held <;> by_cases hk : v.request.slot = k <;> simp [hk]

theorem taken_drop_of_free (r : Nat) (h : store.taken k = false) :
    (store.drop r).taken k = false := by
  cases hv : store.view r with
  | none =>
    have hq : store.requests[r]? = none := Option.map_eq_none_iff.mp hv
    rw [drop_of_none hq, h]
  | some v => rw [taken_drop_of_view k hv, h, Bool.false_and]

theorem taken_dropAll_of_free (rs : List Nat) (h : store.taken k = false) :
    (store.dropAll rs).taken k = false := by
  induction rs generalizing store with
  | nil => exact h
  | cons r rest ih => exact ih (taken_drop_of_free r h)

/-- When the request that holds the slot is dropped among others the slot is free. -/
theorem taken_dropAll_of_holds (hc : store.Coherent) {rs : List Nat} (h : store.Holds k r i)
    (hr : r ∈ rs) : (store.dropAll rs).taken k = false := by
  induction rs generalizing store with
  | nil => cases hr
  | cons s rest ih =>
    by_cases hs : r = s
    · subst hs
      obtain ⟨c, t, hv⟩ := h
      refine taken_dropAll_of_free rest ?_
      rw [taken_drop_of_view k hv]
      simp
    · refine ih (hc.drop s) ?_ ((List.mem_cons.mp hr).resolve_left hs)
      obtain ⟨c, t, hv⟩ := h
      exact ⟨c, t, (view_drop_of_ne hc hs).trans hv⟩

/-! ### The end of a resumption -/

/-- What is collected from a slot is the instruction of the request that holds it. Once its cell is
filled the request is answered, and no other request has changed. -/
theorem collect_of_holds (hc : store.Coherent) (h : store.Holds k r i) :
    ∃ issued, (store.collect k).1 = some issued ∧ issued.instruction = i ∧
      issued.cell < (store.collect k).2.cells.size ∧
      (store.collect k).2.cellAt issued.cell = .empty ∧
      ∀ value, ((store.collect k).2.putCell issued.cell (.full value)).Coherent ∧
        ((store.collect k).2.putCell issued.cell (.full value)).slots.size = store.slots.size ∧
        ((store.collect k).2.putCell issued.cell (.full value)).taken k = false ∧
        ((store.collect k).2.putCell issued.cell (.full value)).Answered k r value ∧
        ∀ s, s ≠ r → ((store.collect k).2.putCell issued.cell (.full value)).view s = store.view s := by
  obtain ⟨c, t, hv⟩ := h
  have hq := request_of_view hv
  obtain ⟨n, hp⟩ := (held_iff hc hv).mp rfl
  change (store.slotAt k).pending = some (n, ⟨i, c⟩) at hp
  have he : store.collect k = (some ⟨i, c⟩, store.vacate k) := by rw [collect, hp]
  have hv' : (store.vacate k).view r =
      some ⟨(Request.fresh ⟨i, c⟩ k).ticketed t, false, .empty⟩ := by
    rw [view_vacate, hv]
    simp
  have hcv := hc.vacate k
  have hb : c < (store.vacate k).cells.size := hc.cell_lt hq
  rw [he]
  refine ⟨⟨i, c⟩, rfl, rfl, hb, cell_of_view hv, fun value => ⟨hcv.putCell c _, ?_, ?_, ?_, ?_⟩⟩
  · simp [putCell, vacate]
  · change (store.vacate k).taken k = false
    rw [taken, slotAt_vacate, if_pos rfl]
    rfl
  · exact ⟨⟨i, c⟩, t, view_putCell_self hcv (.full value) hv'⟩
  · intro s hs
    dsimp only
    rw [view_putCell hcv, view_vacate]
    cases hw : store.view s with
    | none => rfl
    | some w =>
      have hcell : w.request.issued.cell ≠ c := fun he =>
        hs (hc.cell_inj (request_of_view hw) hq he)
      have hheld : (w.held && w.request.slot != k) = w.held := by
        cases hh : w.held with
        | false => rfl
        | true =>
          have hk : w.request.slot ≠ k := fun hk => hs (held_unique hc hw hv hh rfl hk)
          simp [hk]
      simp only [Option.map_some, hheld, if_neg hcell]

end Trampoline.Store
