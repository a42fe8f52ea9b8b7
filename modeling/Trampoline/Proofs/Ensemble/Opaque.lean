import Trampoline.Proofs.Ensemble.Twins
import Trampoline.Proofs.Sequential.Agreement

/-!
Descriptions that do not look into their requests. All that such a description can do with a request is to
poll it, to drop it and to hand it on; the number of the request makes no difference. Two runs of it, in
two stores that may hold anything else besides, keep step with each other.
-/
namespace Trampoline

variable {I V X α T P S H : Type}

namespace Script

/-- Two scripts do the same, each with its own requests. Those of the first are told from the requests of
others by `mine`. What is done to a request of others need not be done by the second script, which goes on
as if there were no such request any more. -/
inductive Alike (mine : Nat → Prop) (alike : Names → X → X → Prop) (related : Names → α → α → Prop) :
    Names → Script I V X α → Script I V X α → Prop
  | done {names : Names} {a a' : α} : related names a a' →
      Alike mine alike related names (.done a) (.done a')
  | request {names : Names} {next next' : Nat → Script I V X α} (i : I) :
      (∀ r r', mine r → Alike mine alike related ((r, r') :: names) (next r) (next' r')) →
      Alike mine alike related names (.act (.request i) next) (.act (.request i) next')
  | poll {names : Names} {next next' : Option (Except CellError V) → Script I V X α} {r r' : Nat} :
      (r, r') ∈ names → (∀ answer, Alike mine alike related names (next answer) (next' answer)) →
      Alike mine alike related names (.act (.poll r) next) (.act (.poll r') next')
  | drop {names : Names} {next next' : Unit → Script I V X α} {r r' : Nat} :
      (r, r') ∈ names → Alike mine alike related names (next ()) (next' ()) →
      Alike mine alike related names (.act (.drop r) next) (.act (.drop r') next')
  | look {names : Names} {next next' : X → Script I V X α} :
      (∀ x x', alike names x x' → Alike mine alike related names (next x) (next' x')) →
      Alike mine alike related names (.act .look next) (.act .look next')
  | share {names : Names} {next next' : Unit → Script I V X α} {x x' : X} : alike names x x' →
      Alike mine alike related names (next ()) (next' ()) →
      Alike mine alike related names (.act (.share x) next) (.act (.share x') next')
  | strayPoll {names : Names} {next : Option (Except CellError V) → Script I V X α}
      {script : Script I V X α} {r : Nat} : ¬ mine r →
      Alike mine alike related names (next none) script →
      Alike mine alike related names (.act (.poll r) next) script
  | strayDrop {names : Names} {next : Unit → Script I V X α} {script : Script I V X α} {r : Nat} :
      ¬ mine r → Alike mine alike related names (next ()) script →
      Alike mine alike related names (.act (.drop r) next) script

end Script

/-- Two descriptions have come to the same. -/
inductive Progress.Alike (same : Names → S → S → Prop) (names : Names) :
    Progress T S → Progress T S → Prop
  | suspended {rest rest' : S} : same names rest rest' →
      Alike same names (.suspended rest) (.suspended rest')
  | finished (value : T) : Alike same names (.finished value) (.finished value)
  | failed (failure : Failure) : Alike same names (.failed failure) (.failed failure)

/-- Descriptions that are the same but for the numbers of their requests stay so, whatever they are
answered, and as long as what they share with others looks alike to them. -/
structure Language.Opaque (l : Language I V X T P S) (mine : Nat → Prop)
    (same : Names → S → S → Prop) (alike : Names → X → X → Prop) : Prop where
  resume : ∀ {names : Names} {s s' : S}, same names s s' →
    Script.Alike mine alike (Progress.Alike same) names (l.resume s) (l.resume s')
  mono : ∀ {names : Names} {x x' : X} (name : Nat × Nat), alike names x x' →
    alike (name :: names) x x'

/-- All that is touched or requested belongs to the description. -/
def Happening.Minds (mine : Nat → Prop) (e : Happening I V) : Prop :=
  ∀ r, e.touched? = some r ∨ e = .requested r → mine r

open Store (Mirror Paired)

/-! ### Scripts -/

namespace Store

theorem shared_poll (store : Store I V X) (r : Nat) : (store.poll r).2.shared = store.shared := by
  have h := poll_cases store r
  generalize (store.poll r).1 = answer, (store.poll r).2 = store' at h
  cases h <;> rfl

theorem shared_drop (store : Store I V X) (r : Nat) : (store.drop r).shared = store.shared := by
  cases hq : store.requests[r]? with
  | none => rw [drop_of_none hq]
  | some q =>
    rw [drop_eq hq]
    split <;> rfl

theorem shared_collect (store : Store I V X) (k : Nat) :
    (store.collect k).2.shared = store.shared := by
  unfold collect
  split <;> rfl

end Store

/-- Where only the own requests are touched, a request of others that is polled or dropped is no more. -/
private theorem not_alive_of_minds {mine : Nat → Prop} {r : Nat} {store : Store I V X}
    {events : List (Happening I V)} {e : Happening I V} (he : store.alive r = true → e ∈ events)
    (ht : e.touched? = some r) (hn : ¬ mine r) (hmine : ∀ e ∈ events, e.Minds mine) :
    store.alive r = false :=
  eq_false_of_ne_true fun ha => hn (hmine e (he ha) r (.inl ht))

/-- Both scripts are carried out, the first among others and the second anywhere else. -/
theorem Script.Alike.run {mine : Nat → Prop} {alike : Names → X → X → Prop}
    {related : Names → α → α → Prop} {names : Names} {script script' : Script I V X α}
    (h : Alike mine alike related names script script')
    (hmono : ∀ {names : Names} {x x' : X} (name : Nat × Nat), alike names x x' →
      alike (name :: names) x x')
    {k k' : Nat} {store store' : Store I V X} (hm : Mirror names k k' store store')
    (hx : alike names store.shared store'.shared)
    (hmine : ∀ e ∈ script.happenings k store, e.Minds mine) :
    ∃ names', Mirror names' k k' (script.run k store).2 (script'.run k' store').2 ∧
      alike names' (script.run k store).2.shared (script'.run k' store').2.shared ∧
      related names' (script.run k store).1 (script'.run k' store').1 := by
  induction h generalizing store store' with
  | done hr => exact ⟨_, hm, hx, hr⟩
  | request i _ ih =>
    have hr : mine store.requests.size :=
      hmine (.requested store.requests.size) (List.mem_append_left _ List.mem_cons_self) _ (.inr rfl)
    exact ih _ _ hr (hm.request i) (hmono _ hx) fun e he => hmine e (List.mem_append_right _ he)
  | @poll names next next' r r' hn _ ih =>
    obtain ⟨ha, hm'⟩ := hm.poll hn
    have hx' : alike names (store.poll r).2.shared (store'.poll r').2.shared := by
      rwa [store.shared_poll, store'.shared_poll]
    rw [run_poll ha.symm]
    exact ih _ hm' hx' fun e he => hmine e (List.mem_append_right _ he)
  | @drop names next next' r r' hn _ ih =>
    have hx' : alike names (store.drop r).shared (store'.drop r').shared := by
      rwa [store.shared_drop, store'.shared_drop]
    exact ih (hm.drop hn) hx' fun e he => hmine e (List.mem_append_right _ he)
  | look _ ih => exact ih _ _ hx hm hx fun e he => hmine e (List.mem_append_right _ he)
  | share hs _ ih =>
    exact ih (hm.share _ _) hs fun e he => hmine e (List.mem_append_right _ he)
  | @strayPoll names next script' r hn _ ih =>
    have hp := Store.poll_of_not_alive (not_alive_of_minds Store.mem_polling_of_alive rfl hn
      fun e he => hmine e (List.mem_append_left _ he))
    rw [run_poll (congrArg Prod.fst hp), hp]
    rw [happenings_poll (congrArg Prod.fst hp), hp] at hmine
    exact ih hm hx fun e he => hmine e (List.mem_append_right _ he)
  | @strayDrop names next script' r hn _ ih =>
    have hp := Store.drop_of_not_alive (not_alive_of_minds Store.mem_dropping_of_alive rfl hn
      fun e he => hmine e (List.mem_append_left _ he))
    have hrun : (act (.drop r) next).run k store = (next ()).run k (store.drop r) := rfl
    rw [hrun, hp]
    rw [happenings_drop, hp] at hmine
    exact ih hm hx fun e he => hmine e (List.mem_append_right _ he)

/-! ### Sequential computations -/

namespace Sequential

/-- The same computation, which has come equally far. -/
inductive Resumable.Same (names : Names) : Resumable I V T → Resumable I V T → Prop
  | fresh (computation : Sequential I V T) : Same names (.fresh computation) (.fresh computation)
  | waiting {r r' : Nat} (next : V → Sequential I V T) : (r, r') ∈ names →
      Same names (.waiting r next) (.waiting r' next)

variable {mine : Nat → Prop} {alike : Names → X → X → Prop} {names : Names}

private theorem alike_polled {r r' : Nat} (hr : (r, r') ∈ names) {next : V → Sequential I V T}
    (h : ∀ value, Script.Alike mine alike (Progress.Alike Resumable.Same) names
      (next value).advance (next value).advance) :
    Script.Alike mine alike (Progress.Alike Resumable.Same) names
      (.act (.poll r) (resumed r next)) (.act (.poll r') (resumed r' next)) := by
  refine .poll hr fun answer => ?_
  rcases answer with _ | ⟨e | value⟩
  · exact .done (.suspended (.waiting next hr))
  · exact .drop hr (.done (.failed _))
  · exact .drop hr (h value)

theorem alike_advance (computation : Sequential I V T) (names : Names) :
    Script.Alike mine alike (Progress.Alike Resumable.Same) names
      (computation.advance (X := X)) computation.advance := by
  induction computation generalizing names with
  | pure value => exact .done (.finished value)
  | fail failure => exact .done (.failed failure)
  | perform i next ih =>
    rw [advance_perform]
    exact .request i fun r r' _ => alike_polled List.mem_cons_self fun value => ih value _

/-- A sequential computation does not look into its requests, nor at the shared value. -/
theorem isOpaque (mine : Nat → Prop) :
    (language (I := I) (V := V) (X := X) (T := T)).Opaque mine Resumable.Same fun _ _ _ => True where
  resume {names _ _} hs := by
    cases hs with
    | fresh computation => exact alike_advance computation names
    | waiting next hr =>
      have h : Script.Alike (X := X) mine (fun _ _ _ => True) (Progress.Alike Resumable.Same) names _ _ :=
        alike_polled hr fun value => alike_advance (next value) names
      rwa [← resume_waiting, ← resume_waiting] at h
  mono _ _ := trivial

end Sequential

end Trampoline
