import Mathlib.Data.List.Forall2
import Trampoline.Proofs.Ensemble.Opaque
import Trampoline.Proofs.Nested.Reading

/-!
Nested descriptions do not look into their requests. Where two of them differ in nothing but the numbers of
their requests, they poll and drop the same, branch by branch, and whatever they are answered they still
differ in nothing else.
-/
namespace Trampoline

variable {I V X T α β : Type} {mine : Nat → Prop} {alike : Names → X → X → Prop} {names more : Names}

/-- One script after the other. The second is given what the first comes to, with all names known by
then. -/
theorem Script.Alike.bind {related : Names → α → α → Prop} {related' : Names → β → β → Prop}
    {script script' : Script I V X α} {f f' : α → Script I V X β}
    (h : Alike mine alike related names script script')
    (hf : ∀ {more : Names} {a a' : α}, names <:+ more → related more a a' →
      Alike mine alike related' more (f a) (f' a')) :
    Alike mine alike related' names (script.bind f) (script'.bind f') := by
  induction h with
  | done hr => exact hf List.suffix_rfl hr
  | request i _ ih =>
    exact .request i fun r r' hr => ih r r' hr fun hm => hf ((List.suffix_cons _ _).trans hm)
  | poll hr _ ih => exact .poll hr fun answer => ih answer hf
  | drop hr _ ih => exact .drop hr (ih hf)
  | look _ ih => exact .look fun x x' hx => ih x x' hx hf
  | share hx _ ih => exact .share hx (ih hf)
  | strayPoll hr _ ih => exact .strayPoll hr (ih hf)
  | strayDrop hr _ ih => exact .strayDrop hr (ih hf)

/-- Requests with their twins, one by one. -/
abbrev Names.Pair (names : Names) : List Nat → List Nat → Prop :=
  List.Forall₂ fun r r' => (r, r') ∈ names

namespace Activity

mutual

/-- The same description, which has come equally far, with requests of its own. -/
inductive Same (names : Names) : Activity I V T → Activity I V T → Prop
  | finished (result : Except Failure T) : Same names (.finished result) (.finished result)
  | waiting {r r' : Nat} (next : V → Nested I V T) : (r, r') ∈ names →
      Same names (.waiting r next) (.waiting r' next)
  | joining {as as' : List (Activity I V T)} (next : List (Except Failure T) → Nested I V T) :
      SameAll names as as' → Same names (.joining as next) (.joining as' next)
  | racing {a a' : Activity I V T} {as as' : List (Activity I V T)}
      (next : Nat × Except Failure T → Nested I V T) : Same names a a' → SameAll names as as' →
      Same names (.racing a as next) (.racing a' as' next)

inductive SameAll (names : Names) : List (Activity I V T) → List (Activity I V T) → Prop
  | nil : SameAll names [] []
  | cons {a a' : Activity I V T} {as as' : List (Activity I V T)} : Same names a a' →
      SameAll names as as' → SameAll names (a :: as) (a' :: as')

end

mutual

theorem Same.mono {a a' : Activity I V T} (h : Same names a a') (hm : names <:+ more) :
    Same more a a' :=
  match h with
  | .finished result => .finished result
  | .waiting next hr => .waiting next (hm.mem hr)
  | .joining next hs => .joining next (hs.mono hm)
  | .racing next h hs => .racing next (h.mono hm) (hs.mono hm)

theorem SameAll.mono {as as' : List (Activity I V T)} (h : SameAll names as as')
    (hm : names <:+ more) : SameAll more as as' :=
  match h with
  | .nil => .nil
  | .cons h hs => .cons (h.mono hm) (hs.mono hm)

end

mutual

theorem Same.owned {a a' : Activity I V T} (h : Same names a a') : names.Pair a.owned a'.owned :=
  match h with
  | .finished _ => .nil
  | .waiting _ hr => .cons hr .nil
  | .joining _ hs => hs.owned
  | .racing _ h hs => List.rel_append h.owned hs.owned

theorem SameAll.owned {as as' : List (Activity I V T)} (h : SameAll names as as') :
    names.Pair (ownedAll as) (ownedAll as') :=
  match h with
  | .nil => .nil
  | .cons h hs => List.rel_append h.owned hs.owned

end

theorem Same.result? {a a' : Activity I V T} (h : Same names a a') : a.result? = a'.result? := by
  cases h <;> rfl

theorem SameAll.results? {as as' : List (Activity I V T)} (h : SameAll names as as') :
    Activity.results? as = Activity.results? as' :=
  match h with
  | .nil => rfl
  | .cons h hs => by rw [Activity.results?, Activity.results?, h.result?, hs.results?]

end Activity

open Activity (Same SameAll)

/-- Races that have come to the same. -/
inductive Contest.Same (names : Names) : Contest I V T → Contest I V T → Prop
  | won {losers losers' : List Nat} (winner : Nat × Except Failure T) : names.Pair losers losers' →
      Same names (.won winner losers) (.won winner losers')
  | undecided {a a' : Activity I V T} {as as' : List (Activity I V T)} : a.Same names a' →
      SameAll names as as' → Same names (.undecided a as) (.undecided a' as')

/-- Branches that are the same but for their requests. -/
structure Branch.Alike (mine : Nat → Prop) (alike : Names → X → X → Prop) (names : Names)
    (branch branch' : Branch I V X T) : Prop where
  owned : names.Pair branch.owned branch'.owned
  poll : ∀ {more : Names}, names <:+ more →
    Script.Alike mine alike Same more branch.poll branch'.poll

namespace Script

theorem alike_dropAll {related : Names → α → α → Prop} {rs rs' : List Nat} (h : names.Pair rs rs')
    {script script' : Script I V X α} (hs : Alike mine alike related names script script') :
    Alike mine alike related names ((dropAll rs).bind fun _ => script)
      ((dropAll rs').bind fun _ => script') := by
  induction h with
  | nil => exact hs
  | cons hr _ ih => exact .drop hr ih

variable {branches branches' : List (Branch I V X T)}

theorem alike_gather (h : List.Forall₂ (Branch.Alike mine alike names) branches branches')
    (hm : names <:+ more) : Alike mine alike SameAll more (gather branches) (gather branches') := by
  induction h generalizing more with
  | nil => exact .done .nil
  | cons hb _ ih =>
    refine (hb.poll hm).bind fun hm' ha => ?_
    refine (ih (hm.trans hm')).bind fun hm'' has => ?_
    exact .done (.cons (ha.mono hm'') has)

private theorem pair_owned (h : List.Forall₂ (Branch.Alike mine alike names) branches branches')
    (hm : names <:+ more) :
    more.Pair (branches.flatMap Branch.owned) (branches'.flatMap Branch.owned) := by
  induction h with
  | nil => exact .nil
  | cons hb _ ih => exact List.rel_append (hb.owned.imp fun _ _ hr => hm.mem hr) ih

theorem alike_contest {branch branch' : Branch I V X T} (hb : branch.Alike mine alike names branch')
    (h : List.Forall₂ (Branch.Alike mine alike names) branches branches') (place : Nat)
    (hm : names <:+ more) :
    Alike mine alike Contest.Same more (contest place branch branches)
      (contest place branch' branches') := by
  induction h generalizing place branch branch' more with
  | nil =>
    refine (hb.poll hm).bind fun {_ a a'} _ ha => ?_
    rw [ha.result?]
    cases a'.result? with
    | some result => exact .done (.won _ .nil)
    | none => exact .done (.undecided ha .nil)
  | cons hother hs ih =>
    refine (hb.poll hm).bind fun {_ a a'} hm' ha => ?_
    rw [ha.result?]
    cases a'.result? with
    | some result => exact .done (.won _ (pair_owned (.cons hother hs) (hm.trans hm')))
    | none =>
      refine (ih hother (place + 1) (hm.trans hm')).bind fun hm'' hc => ?_
      cases hc with
      | won winner hl => exact .done (.won winner (List.rel_append (ha.mono hm'').owned hl))
      | undecided hfirst has => exact .done (.undecided (ha.mono hm'') (.cons hfirst has))

/-- A request that is polled, and what comes after its answer. -/
theorem alike_answered {r r' : Nat} (hr : (r, r') ∈ names) {next : V → Nested I V T}
    {goOn : V → Script I V X (Activity I V T)}
    (h : ∀ value, Alike mine alike Same names (goOn value) (goOn value)) :
    Alike mine alike Same names ((poll r).bind (answered r next goOn))
      ((poll r').bind (answered r' next goOn)) := by
  refine .poll hr fun answer => ?_
  rcases answer with _ | ⟨e | value⟩
  · exact .done (.waiting next hr)
  · exact .drop hr (.done (.finished _))
  · exact .drop hr (h value)

theorem alike_joined {as as' : List (Activity I V T)} (hs : SameAll names as as')
    {next : List (Except Failure T) → Nested I V T}
    {goOn : List (Except Failure T) → Script I V X (Activity I V T)}
    (h : ∀ results, Alike mine alike Same names (goOn results) (goOn results)) :
    Alike mine alike Same names (joined next goOn as) (joined next goOn as') := by
  rw [joined, joined, hs.results?]
  cases Activity.results? as' with
  | some results => exact h results
  | none => exact .done (.joining next hs)

theorem alike_raced {contest contest' : Contest I V T} (hc : contest.Same names contest')
    {next : Nat × Except Failure T → Nested I V T}
    {goOn : Nat × Except Failure T → Script I V X (Activity I V T)}
    (h : ∀ winner, Alike mine alike Same names (goOn winner) (goOn winner)) :
    Alike mine alike Same names (raced next goOn contest) (raced next goOn contest') := by
  cases hc with
  | won winner hl => exact alike_dropAll hl (h winner)
  | undecided ha has => exact .done (.racing next ha has)

end Script

namespace Nested

private theorem alike_starts {ds : List (Nested I V T)}
    (h : ∀ d ∈ ds, ∀ names, Script.Alike mine alike Same names (X := X) d.start d.start) :
    List.Forall₂ (Branch.Alike mine alike names) (starts ds) (starts ds) := by
  induction ds with
  | nil => exact .nil
  | cons d ds ih =>
    obtain ⟨hd, hds⟩ := List.forall_mem_cons.mp h
    exact .cons ⟨.nil, fun {more} _ => hd more⟩ (ih hds)

theorem alike_start (d : Nested I V T) (names : Names) :
    Script.Alike mine alike Same names d.start d.start := by
  induction d generalizing names with
  | pure value => exact .done (.finished _)
  | fail failure => exact .done (.finished _)
  | perform i next ih =>
    exact .request i fun r r' _ => Script.alike_answered List.mem_cons_self fun value => ih value _
  | join branches next ihs ih =>
    exact (Script.alike_gather (alike_starts ihs) List.suffix_rfl).bind fun _ has =>
      Script.alike_joined has fun results => ih results _
  | race first others next ihfirst ihs ih =>
    exact (Script.alike_contest ⟨.nil, fun {more} _ => ihfirst more⟩ (alike_starts ihs) 0
      List.suffix_rfl).bind fun _ hc => Script.alike_raced hc fun winner => ih winner _

end Nested

namespace Activity

mutual

theorem Same.poll {a a' : Activity I V T} {more : Names} (h : Same names a a')
    (hm : names <:+ more) : Script.Alike mine alike Same more a.poll a'.poll :=
  match h with
  | .finished result => .done (.finished result)
  | .waiting next hr => Script.alike_answered (hm.mem hr) fun value => (next value).alike_start _
  | .joining next hs => (Script.alike_gather hs.polls hm).bind fun _ has =>
      Script.alike_joined has fun results => (next results).alike_start _
  | .racing next h hs => (Script.alike_contest ⟨h.owned, fun hm => h.poll hm⟩ hs.polls 0 hm).bind fun _ hc =>
      Script.alike_raced hc fun winner => (next winner).alike_start _

theorem SameAll.polls {as as' : List (Activity I V T)} (h : SameAll names as as') :
    List.Forall₂ (Branch.Alike mine alike names) (polls as) (polls as') :=
  match h with
  | .nil => .nil
  | .cons h hs => .cons ⟨h.owned, fun hm => h.poll hm⟩ hs.polls

end

end Activity

namespace Nested

inductive Resumable.Same (names : Names) : Resumable I V T → Resumable I V T → Prop
  | fresh (description : Nested I V T) : Same names (.fresh description) (.fresh description)
  | begun {a a' : Activity I V T} : a.Same names a' → Same names (.begun a) (.begun a')

private theorem alike_progress {a a' : Activity I V T} (h : a.Same names a') :
    Progress.Alike Resumable.Same names (Resumable.progress a) (Resumable.progress a') := by
  cases h with
  | finished result =>
    cases result with
    | ok value => exact .finished value
    | error failure => exact .failed failure
  | waiting next hr => exact .suspended (.begun (.waiting next hr))
  | joining next hs => exact .suspended (.begun (.joining next hs))
  | racing next h hs => exact .suspended (.begun (.racing next h hs))

/-- A nested description does not look into its requests, nor at the shared value. -/
theorem isOpaque (mine : Nat → Prop) :
    (language (I := I) (V := V) (X := X) (T := T)).Opaque mine Resumable.Same fun _ _ _ => True where
  resume hs := by
    cases hs with
    | fresh description =>
      exact (description.alike_start _).bind fun _ h => .done (alike_progress h)
    | begun h => exact (h.poll List.suffix_rfl).bind fun _ h => .done (alike_progress h)
  mono _ _ := trivial

end Nested

end Trampoline
