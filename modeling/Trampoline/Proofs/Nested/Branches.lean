import Trampoline.Proofs.Nested.Polls

/-!
Several branches that are polled one after the other. Each finds the requests of its own as they were
left, and as soon as one of them has its instruction in the slot all those behind it stay out.
-/
namespace Trampoline

variable {I V X T A σ : Type} {k : Nat} {store store' store'' : Store I V X}

open Happening (Untroubled untroubled_append)

namespace Tidy

variable {mine mine' left left' : List Nat} {events events' : List (Happening I V)}

/-- Nothing is polled at all. -/
theorem nothing (hc : store.Coherent) (hq : ∀ r ∈ mine, store.Quiet k r) (hn : mine.Nodup) :
    Tidy k store mine [] mine store :=
  ⟨fun _ _ => List.not_mem_nil, .refl hc mine, fun _ => .inl, fun r hr => (hq r hr).lt, hn,
    fun _ => hq⟩

variable (h : Tidy k store mine events left store')
  (h' : Tidy k store' mine' events' left' store'')
  (hq' : ∀ r ∈ mine', store.Quiet k r) (hd : ∀ r ∈ mine, r ∉ mine')

include h hq' hd

/-- What one branch does leaves the requests of another as they are. -/
theorem untouched : ∀ r ∈ mine', store'.view r = store.view r := fun r hr =>
  h.frame.view (hq' r hr).lt fun hr' => hd r hr' hr

theorem not_mem_of_left : ∀ r ∈ left, r ∉ mine' := by
  intro r hr hr'
  obtain hm | hs := h.owned r hr
  · exact hd r hm hr'
  · exact Nat.not_le_of_lt (hq' r hr').lt hs

include h'

theorem kept : ∀ r ∈ left, store''.view r = store'.view r := fun r hr =>
  h'.frame.view (h.lt r hr) (h.not_mem_of_left hq' hd r hr)

theorem disjoint : ∀ r ∈ left, r ∉ left' := by
  intro r hr hr'
  obtain hm | hs := h'.owned r hr'
  · exact h.not_mem_of_left hq' hd r hr hm
  · exact Nat.not_le_of_lt (h.lt r hr) hs

/-- One branch after another. -/
theorem append (hc : store.Coherent) (hq : ∀ r ∈ mine, store.Quiet k r) :
    Tidy k store (mine ++ mine') (events ++ events') (left ++ left') store'' where
  untroubled := untroubled_append.mpr ⟨h.untroubled, h'.untroubled⟩
  frame := (h.frame.mono fun _ hr => List.mem_append_left _ hr).trans h'.frame fun _ hr =>
    .inl (List.mem_append_right _ hr)
  owned r hr := by
    obtain hr | hr := List.mem_append.mp hr
    · exact (h.owned r hr).imp_left (List.mem_append_left _)
    · exact (h'.owned r hr).imp (List.mem_append_right _) (Nat.le_trans h.frame.requests)
  lt r hr := by
    obtain hr | hr := List.mem_append.mp hr
    · exact Nat.lt_of_lt_of_le (h.lt r hr) h'.frame.requests
    · exact h'.lt r hr
  nodup := by
    refine List.nodup_append.mpr ⟨h.nodup, h'.nodup, fun r hr s hs he => ?_⟩
    exact h.disjoint h' hq' hd r hr (he ▸ hs)
  behind ht r hr := by
    obtain hr | hr := List.mem_append.mp hr
    · exact (h.behind ht r hr).congr (h.kept h' hq' hd r hr)
    · exact h'.behind (h.frame.taken hc (fun r hr => (hq r hr).held) ht) r hr

end Tidy

theorem Activity.eq_finished {a : Activity I V T} {result : Except Failure T}
    (h : a.result? = some result) : a = .finished result := by
  cases a with
  | finished _ => cases h; rfl
  | waiting _ _ => cases h
  | joining _ _ => cases h
  | racing _ _ _ => cases h

/-- Branches that have all finished own no requests. -/
theorem Activity.ownedAll_of_results? {as : List (Activity I V T)}
    {results : List (Except Failure T)} (h : results? as = some results) : ownedAll as = [] := by
  induction as generalizing results with
  | nil => rfl
  | cons a others ih =>
    obtain ⟨result, hr, hs⟩ := Option.bind_eq_some_iff.mp h
    obtain ⟨results, hs, _⟩ := Option.map_eq_some_iff.mp hs
    obtain rfl := eq_finished hr
    exact ih hs

/-- A branch that can be polled wherever its requests stand as in the given store. -/
def Branch.Runs (k : Nat) (store : Store I V X) (branch : Branch I V X T)
    (c : Sequential I V (Except Failure T)) : Prop :=
  ∀ {store' : Store I V X}, store'.Coherent → k < store'.slots.size →
    (∀ r ∈ branch.owned, store'.view r = store.view r) →
    branch.poll.Goes Activity.outlook k store' branch.owned c

/-- Branches that share no requests, with what is left to do of each. -/
inductive Branches (k : Nat) (store : Store I V X) :
    List (Branch I V X T) → List (Sequential I V (Except Failure T)) → Prop
  | nil : Branches k store [] []
  | cons {branch : Branch I V X T} {branches : List (Branch I V X T)}
      {c : Sequential I V (Except Failure T)} {cs : List (Sequential I V (Except Failure T))} :
      branch.Runs k store c → (∀ r ∈ branch.owned, store.Quiet k r) → branch.owned.Nodup →
      (∀ r ∈ branch.owned, r ∉ branches.flatMap Branch.owned) → Branches k store branches cs →
      Branches k store (branch :: branches) (c :: cs)

namespace Branches

variable {branches : List (Branch I V X T)} {cs : List (Sequential I V (Except Failure T))}

theorem quiet (h : Branches k store branches cs) :
    ∀ r ∈ branches.flatMap Branch.owned, store.Quiet k r := by
  induction h with
  | nil => exact fun _ hr => absurd hr List.not_mem_nil
  | cons _ hq _ _ _ ih => exact fun r hr => (List.mem_append.mp hr).elim (hq r) (ih r)

theorem nodup (h : Branches k store branches cs) : (branches.flatMap Branch.owned).Nodup := by
  induction h with
  | nil => exact List.nodup_nil
  | cons _ _ hn hd _ ih =>
    exact List.nodup_append.mpr ⟨hn, ih, fun r hr s hs he => hd r hr (he ▸ hs)⟩

theorem head {branch : Branch I V X T} {c : Sequential I V (Except Failure T)}
    (h : Branches k store (branch :: branches) (c :: cs)) (hc : store.Coherent)
    (hk : k < store.slots.size) : branch.poll.Goes Activity.outlook k store branch.owned c := by
  cases h with
  | cons hr _ _ _ _ => exact hr hc hk fun _ _ => rfl

/-- Branches do not notice what is done to other requests. -/
theorem congr (h : Branches k store branches cs)
    (hv : ∀ r ∈ branches.flatMap Branch.owned, store'.view r = store.view r) :
    Branches k store' branches cs := by
  induction h with
  | nil => exact .nil
  | cons hr hq hn hd _ ih =>
    have hv' := fun r hr => hv r (List.mem_append_left _ hr)
    exact .cons (fun hc hk hs => hr hc hk fun r hr => (hs r hr).trans (hv' r hr))
      (fun r hr => (hq r hr).congr (hv' r hr)) hn hd
      (ih fun r hr => hv r (List.mem_append_right _ hr))

end Branches

/-- A branch that has finished where the slot was free. -/
theorem Went.free {mine : List Nat} {events : List (Happening I V)}
    {left : Activity I V T × Store I V X} {c : Sequential I V (Except Failure T)}
    {result : Except Failure T} (h : Went Activity.outlook k store mine events left c)
    (ht : store.taken k = false) (hv : c.value? = some result) :
    left.1 = .finished result ∧ left.2.taken k = false := by
  have he := Activity.eq_finished (h.value.trans hv)
  refine ⟨he, (h.freed ht (by rw [hv]; rfl)).resolve_right ?_⟩
  rintro ⟨r, hr, _⟩
  rw [he] at hr
  exact absurd hr List.not_mem_nil

/-- Where the first of several branches has its instruction in the slot and the others stay out, it is its
answer that is needed to go on. -/
theorem Heads.first {o : Outlook I V σ A} {both : σ} {left : Activity I V T × Store I V X}
    {others : List Nat} {i : I} {next : V → Sequential I V (Except Failure T)}
    {next' : V → Sequential I V A} {r : Nat} (h : Heads Activity.outlook k left i next r)
    (ho : o.owned both = left.1.owned ++ others)
    (hkept : ∀ s ∈ left.1.owned, store'.view s = left.2.view s)
    (hb : ∀ s ∈ others, store'.Quiet k s) (hd : ∀ s ∈ left.1.owned, s ∉ others)
    (hr : ∀ {due : Nat → Option (I ⊕ V)} {value : V}, left.1.rest due = next value →
      (∀ s ∈ others, due s = store'.due? s) → o.rest due both = next' value) :
    Heads o k (both, store') i next' r := by
  constructor
  case mem => exact ho ▸ List.mem_append_left _ h.mem
  case holds =>
    obtain ⟨c, t, hv⟩ := h.holds
    exact ⟨c, t, (hkept r h.mem).trans hv⟩
  case quiet =>
    intro s hs hne
    obtain hs | hs := List.mem_append.mp (ho ▸ hs)
    · exact (h.quiet s hs hne).congr (hkept s hs)
    · exact hb s hs
  case rest =>
    intro due value hdue hvalue
    rw [ho] at hdue
    refine hr (h.rest (fun s hs hne => ?_) hvalue) fun s hs => ?_
    · exact (hdue s (List.mem_append_left _ hs) hne).trans (Store.due?_congr (hkept s hs))
    · exact hdue s (List.mem_append_right _ hs) fun he => hd r h.mem (he ▸ hs)

/-! ### Joins -/

/-- Polling all branches of a join. -/
theorem Branches.gather_goes {branches : List (Branch I V X T)}
    {cs : List (Sequential I V (Except Failure T))} (h : Branches k store branches cs)
    (hc : store.Coherent) (hk : k < store.slots.size) :
    (Script.gather branches).Goes Activity.outlooks k store (branches.flatMap Branch.owned)
      (.all cs) := by
  induction branches generalizing store cs with
  | nil =>
    cases h
    exact ⟨.nothing hc (fun _ hr => absurd hr List.not_mem_nil) List.nodup_nil, rfl, rfl,
      fun ht _ => .inl ht, fun _ h => by cases h⟩
  | cons branch branches ih =>
    cases h with
    | cons hr hq hn hd hs =>
    rename_i c cs
    have hw := hr hc hk fun _ _ => rfl
    have hu := hw.untouched hs.quiet hd
    have hw' := ih (hs.congr hu) hw.frame.coherent (by rw [hw.frame.slots]; exact hk)
    unfold Script.Goes at hw hw' ⊢
    rw [Script.gather, Script.run_bind, Script.happenings_bind, Script.run_bind,
      Script.happenings_bind]
    generalize branch.poll.run k store = left at *
    generalize branch.poll.happenings k store = events at *
    generalize (Script.gather branches).run k left.2 = left' at *
    generalize (Script.gather branches).happenings k left.2 = events' at *
    have hkept := hw.kept hw'.toTidy hs.quiet hd
    have hdisjoint := hw.disjoint hw'.toTidy hs.quiet hd
    have hrest : left.1.rest left'.2.due? = c :=
      (Activity.rest_congr left.1 fun r hr => Store.due?_congr (hkept r hr)).trans hw.rest
    rw [Script.run, Script.happenings, List.append_nil]
    constructor
    case toTidy => exact hw.append hw'.toTidy hs.quiet hd hc hq
    case value =>
      rw [Sequential.value?_all_cons, ← hw.value, ← hw'.value]
      rfl
    case rest =>
      change Sequential.all (left.1.rest left'.2.due? :: _) = _
      rw [hrest, Sequential.all, Sequential.all, ← hw'.rest]
      rfl
    case freed =>
      intro ht hsome
      rw [Sequential.value?_all_cons, Option.isSome_iff_exists] at hsome
      obtain ⟨_, hsome⟩ := hsome
      obtain ⟨result, hv, hsome⟩ := Option.bind_eq_some_iff.mp hsome
      obtain ⟨results, hv', _⟩ := Option.map_eq_some_iff.mp hsome
      obtain hf | ⟨r, hr, hh⟩ := hw'.freed (hw.free ht hv).2 (by rw [hv']; rfl)
      · exact .inl hf
      · exact .inr ⟨r, List.mem_append_right _ hr, hh⟩
    case head =>
      intro ht hnone
      cases hv : c.value? with
      | some result =>
        obtain ⟨he, hf⟩ := hw.free ht hv
        obtain rfl := Sequential.eq_pure_of_value? hv
        rw [Sequential.value?_all_cons, hv, Option.bind_some, Option.map_eq_none_iff] at hnone
        obtain ⟨i, next, r, hp, hh⟩ := hw'.head hf hnone
        refine ⟨i, fun value => (next value).bind fun results => .pure (result :: results), r, ?_, ?_⟩
        · rw [Sequential.all, hp]
          rfl
        · constructor
          case mem => exact List.mem_append_right _ hh.mem
          case holds => exact hh.holds
          case quiet =>
            intro s hs
            refine hh.quiet s ((List.mem_append.mp hs).resolve_left ?_)
            rw [he]
            exact List.not_mem_nil
          case rest =>
            intro due value hdue hr
            change Sequential.all (left.1.rest due :: _) = _
            rw [he, Sequential.all, ← hh.rest (fun s hs => hdue s (List.mem_append_right _ hs)) hr]
            rfl
      | none =>
        obtain ⟨i, next, r, rfl, hh⟩ := hw.head ht hv
        refine ⟨i, _, r, rfl, hh.first rfl hkept
          (hw'.behind (hh.holds.taken hw.frame.coherent)) hdisjoint fun {due value} hl hdue => ?_⟩
        have hl' : Activity.rests due left'.1 = Activity.rests left'.2.due? left'.1 :=
          Activity.rests_congr (fun a _ => a.rest_congr) hdue
        change Sequential.all (left.1.rest due :: _) = _
        rw [hl, hl', Sequential.all, ← hw'.rest]
        rfl

/-! ### Races -/

theorem Contest.eq_won {place : Nat} {s : Contest I V T} {winner : Nat × Except Failure T}
    (h : (Contest.outlook place).value? s = some winner) :
    ∃ losers, s = .won winner losers := by
  cases s with
  | won _ losers => cases h; exact ⟨losers, rfl⟩
  | undecided _ _ => cases h

theorem Contest.eq_undecided {place : Nat} {s : Contest I V T}
    (h : (Contest.outlook place).value? s = none) :
    ∃ first others, s = .undecided first others := by
  cases s with
  | won _ _ => cases h
  | undecided first others => exact ⟨first, others, rfl⟩

/-- A branch that has finished wins the race. Those behind it were not polled. -/
private theorem went_won {branch : Branch I V X T} {branches : List (Branch I V X T)}
    {c : Sequential I V (Except Failure T)} {cs : List (Sequential I V (Except Failure T))}
    (h : Branches k store (branch :: branches) (c :: cs)) (hc : store.Coherent)
    {events : List (Happening I V)} {left : Activity I V T × Store I V X}
    (hw : Went Activity.outlook k store branch.owned events left c) {result : Except Failure T}
    (hv : c.value? = some result) (place : Nat) :
    Went (Contest.outlook place) k store ((branch :: branches).flatMap Branch.owned) events
      (.won (place, result) (branches.flatMap Branch.owned), left.2) (.first place c cs) := by
  cases h with
  | cons _ hq _ hd hs =>
  have hu := hw.untouched hs.quiet hd
  have ht := hw.append (.nothing hw.frame.coherent (hs.congr hu).quiet hs.nodup) hs.quiet hd hc hq
  rw [Activity.outlook, Activity.eq_finished (hw.value.trans hv), List.append_nil] at ht
  have hf : Sequential.first place c cs = _ := Sequential.first_of_value? hv cs
  exact ⟨ht, by rw [hf]; rfl, hf.symm, fun ht _ => .inl (hw.free ht hv).2, by simp [hf, Sequential.value?]⟩

private theorem Branches.goes_of_value {branch : Branch I V X T} {branches : List (Branch I V X T)}
    {c : Sequential I V (Except Failure T)} {cs : List (Sequential I V (Except Failure T))}
    (h : Branches k store (branch :: branches) (c :: cs)) (hc : store.Coherent)
    (hk : k < store.slots.size) {result : Except Failure T} (hv : c.value? = some result)
    (place : Nat) :
    (Script.contest place branch branches).Goes (Contest.outlook place) k store
      ((branch :: branches).flatMap Branch.owned) (.first place c cs) := by
  have hw := h.head hc hk
  have he : (branch.poll.run k store).1 = .finished result :=
    Activity.eq_finished (hw.value.trans hv)
  have hrun : (Script.contest place branch branches).run k store =
        (.won (place, result) (branches.flatMap Branch.owned), (branch.poll.run k store).2) ∧
      (Script.contest place branch branches).happenings k store =
        branch.poll.happenings k store := by
    cases branches <;>
      rw [Script.contest, Script.run_bind, Script.happenings_bind, he] <;>
      exact ⟨rfl, List.append_nil _⟩
  unfold Script.Goes
  rw [hrun.1, hrun.2]
  exact went_won h hc hw hv place

/-- A race that is not decided yet goes on as its first branch does. -/
private theorem went_undecided {mine mine' : List Nat} {events events' : List (Happening I V)}
    {left : Activity I V T × Store I V X} {c : Sequential I V (Except Failure T)}
    {cs : List (Sequential I V (Except Failure T))} {others : List (Activity I V T)} {place : Nat}
    (hw : Went Activity.outlook k store mine events left c) (hv : c.value? = none)
    (ht : Tidy k left.2 mine' events' (Activity.ownedAll others) store') (hc : store.Coherent)
    (hq : ∀ r ∈ mine, store.Quiet k r) (hq' : ∀ r ∈ mine', store.Quiet k r)
    (hd : ∀ r ∈ mine, r ∉ mine') (hn : Sequential.leftmost? (place + 1) cs = none)
    (hn' : Sequential.leftmost? (place + 1) (Activity.rests store'.due? others) = none) :
    Went (Contest.outlook place) k store (mine ++ mine') (events ++ events')
      (.undecided left.1 others, store') (.first place c cs) := by
  have hkept := hw.kept ht hq' hd
  have hnone : (Sequential.first place c cs).value? = none := by
    rw [Sequential.value?_first, Sequential.leftmost?, hv]
    exact hn
  have hl : left.1.rest store'.due? = c :=
    (Activity.rest_congr left.1 fun r hr => Store.due?_congr (hkept r hr)).trans hw.rest
  refine ⟨hw.append ht hq' hd hc hq, hnone.symm, ?_, by simp [hnone], fun hf _ => ?_⟩
  · change Sequential.first place (left.1.rest _) _ = _
    rw [hl, Sequential.first_eq_bind hn', Sequential.first_eq_bind hn]
  · obtain ⟨i, next, r, rfl, hh⟩ := hw.head hf hv
    refine ⟨i, fun value => (next value).bind fun result => .pure (place, result), r,
      Sequential.first_eq_bind hn, ?_⟩
    refine hh.first rfl hkept
      (ht.behind (hh.holds.taken hw.frame.coherent)) (hw.disjoint ht hq' hd) fun {due value} hl hdue => ?_
    have he : Activity.rests due others = Activity.rests store'.due? others :=
      Activity.rests_congr (fun a _ => a.rest_congr) hdue
    change Sequential.first place (left.1.rest due) _ = _
    rw [hl, he, Sequential.first_eq_bind hn']

/-- A branch behind an undecided one has won the race. -/
private theorem went_won_behind {mine mine' losers : List Nat} {events events' : List (Happening I V)}
    {left : Activity I V T × Store I V X} {c : Sequential I V (Except Failure T)}
    {cs : List (Sequential I V (Except Failure T))} {winner : Nat × Except Failure T} {place : Nat}
    (hw : Went Activity.outlook k store mine events left c) (hv : c.value? = none)
    (ht : Tidy k left.2 mine' events' losers store') (hc : store.Coherent)
    (hq : ∀ r ∈ mine, store.Quiet k r) (hq' : ∀ r ∈ mine', store.Quiet k r)
    (hd : ∀ r ∈ mine, r ∉ mine') (hs : Sequential.leftmost? (place + 1) cs = some winner) :
    Went (Contest.outlook place) k store (mine ++ mine') (events ++ events')
      (.won winner (left.1.owned ++ losers), store') (.first place c cs) := by
  have hf : Sequential.first place c cs = .pure winner := by
    rw [Sequential.first_of_none hv, hs]
  refine ⟨hw.append ht hq' hd hc hq, by rw [hf]; rfl, hf.symm, fun hfree _ => .inr ?_,
    by simp [hf, Sequential.value?]⟩
  obtain ⟨i, next, r, rfl, hh⟩ := hw.head hfree hv
  obtain ⟨cell, t, hview⟩ := hh.holds
  exact ⟨r, List.mem_append_left _ hh.mem, i, cell, t,
    (hw.kept ht hq' hd r hh.mem).trans hview⟩

/-- Polling the branches of a race. -/
theorem Branches.contest_goes {branch : Branch I V X T} {branches : List (Branch I V X T)}
    {c : Sequential I V (Except Failure T)} {cs : List (Sequential I V (Except Failure T))}
    (h : Branches k store (branch :: branches) (c :: cs)) (hc : store.Coherent)
    (hk : k < store.slots.size) (place : Nat) :
    (Script.contest place branch branches).Goes (Contest.outlook place) k store
      ((branch :: branches).flatMap Branch.owned) (.first place c cs) := by
  cases hv : c.value? with
  | some result => exact h.goes_of_value hc hk hv place
  | none =>
  induction branches generalizing store branch c cs place with
  | nil =>
    cases h with
    | cons hr hq _ hd hs =>
    cases hs
    have hw := hr hc hk fun _ _ => rfl
    unfold Script.Goes at hw ⊢
    rw [Script.contest, Script.run_bind, Script.happenings_bind]
    generalize branch.poll.run k store = left at *
    generalize branch.poll.happenings k store = events at *
    have hn : left.1.result? = none := hw.value.trans hv
    have ht : Tidy k left.2 [] [] [] left.2 :=
      .nothing hw.frame.coherent (fun _ hr => absurd hr List.not_mem_nil) List.nodup_nil
    simp only [hn]
    exact went_undecided hw hv ht hc hq (fun _ hr => absurd hr List.not_mem_nil) hd rfl rfl
  | cons other branches ih =>
    cases h with
    | cons hr hq _ hd hs =>
    cases hs with
    | @cons _ _ c' cs' hr' hq' hn' hd' hs' =>
    have hs := Branches.cons hr' hq' hn' hd' hs'
    have hw := hr hc hk fun _ _ => rfl
    have hs₁ := hs.congr (hw.untouched hs.quiet hd)
    have hk₁ : k < (branch.poll.run k store).2.slots.size := by rw [hw.frame.slots]; exact hk
    have hw' : (Script.contest (place + 1) other branches).Goes (Contest.outlook (place + 1)) k
        (branch.poll.run k store).2 ((other :: branches).flatMap Branch.owned)
        (.first (place + 1) c' cs') := by
      cases hv' : c'.value? with
      | some result => exact hs₁.goes_of_value hw.frame.coherent hk₁ hv' _
      | none => exact ih hs₁ hw.frame.coherent hk₁ _ hv'
    unfold Script.Goes at hw hw' ⊢
    rw [Script.contest, Script.run_bind, Script.happenings_bind]
    generalize branch.poll.run k store = left at *
    generalize branch.poll.happenings k store = events at *
    have hn : left.1.result? = none := hw.value.trans hv
    simp only [hn]
    rw [Script.run_bind, Script.happenings_bind]
    generalize (Script.contest (place + 1) other branches).run k left.2 = left' at *
    generalize (Script.contest (place + 1) other branches).happenings k left.2 = events' at *
    obtain ⟨contest, store'⟩ := left'
    have hvalue := hw'.value
    rw [Sequential.value?_first] at hvalue
    cases hwinner : Sequential.leftmost? (place + 1) (c' :: cs') with
    | some winner =>
      obtain ⟨losers, rfl⟩ := Contest.eq_won (hvalue.trans hwinner)
      simp only [Script.run, Script.happenings, List.append_nil]
      exact went_won_behind hw hv hw'.toTidy hc hq hs.quiet hd hwinner
    | none =>
      obtain ⟨first, others, rfl⟩ := Contest.eq_undecided (hvalue.trans hwinner)
      simp only [Script.run, Script.happenings, List.append_nil]
      refine went_undecided hw hv hw'.toTidy hc hq hs.quiet hd hwinner ?_
      have hrest : Sequential.first (place + 1) (first.rest store'.due?)
          (Activity.rests store'.due? others) = .first (place + 1) c' cs' := hw'.rest
      rw [Activity.rests, ← Sequential.value?_first, hrest, Sequential.value?_first, hwinner]

end Trampoline
