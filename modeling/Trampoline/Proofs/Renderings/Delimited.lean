import Mathlib.Data.List.Basic
import Trampoline.Rendering

/-!
Texts that tell where they end. Quotes, escapes, brackets and commas are set so that a value can be read
off the text it begins, whatever comes after it. Only a number needs something behind it that is no digit.
-/
namespace Trampoline

/-- Two texts that are cut at the first character of some kind. -/
theorem cut_inj {p : Char → Bool} {a b s t : List Char} (ha : ∀ c ∈ a, p c = true)
    (hb : ∀ c ∈ b, p c = true) (hs : s.takeWhile p = []) (ht : t.takeWhile p = [])
    (h : a ++ s = b ++ t) : a = b ∧ s = t := by
  have hab := congrArg (List.takeWhile p) h
  rw [List.takeWhile_append_of_pos ha, List.takeWhile_append_of_pos hb, hs, ht, List.append_nil,
    List.append_nil] at hab
  subst hab
  exact ⟨rfl, List.append_cancel_left h⟩

theorem toDigits_inj {base n m : Nat} (hb : 1 < base) (hb' : base ≤ 16)
    (h : Nat.toDigits base n = Nat.toDigits base m) : n = m := by
  have digit : ∀ n < 16, ∀ m < 16, n.digitChar = m.digitChar → n = m := by decide
  have last {n m : Nat} (hn : n < base) (hm : base ≤ m) :
      Nat.toDigits base n ≠ Nat.toDigits base m := by
    rw [Nat.toDigits_of_lt_base hn, Nat.toDigits_of_base_le hb hm, ← List.nil_append [n.digitChar]]
    exact fun h => Nat.toDigits_ne_nil (List.append_inj' h rfl).1.symm
  induction n using Nat.strongRecOn generalizing m with
  | ind n ih =>
    obtain hn | hn := Nat.lt_or_ge n base <;> obtain hm | hm := Nat.lt_or_ge m base
    · rw [Nat.toDigits_of_lt_base hn, Nat.toDigits_of_lt_base hm] at h
      exact digit n (by omega) m (by omega) (List.singleton_inj.mp h)
    · exact absurd h (last hn hm)
    · exact absurd h.symm (last hm hn)
    · rw [Nat.toDigits_of_base_le hb hn, Nat.toDigits_of_base_le hb hm] at h
      obtain ⟨hinit, hlast⟩ := List.append_inj' h rfl
      have hdiv := ih (n / base) (Nat.div_lt_self (by omega) hb) hinit
      have hn' := Nat.mod_lt n (Nat.zero_lt_of_lt hb)
      have hm' := Nat.mod_lt m (Nat.zero_lt_of_lt hb)
      have hmod := digit _ (by omega) _ (by omega) (List.singleton_inj.mp hlast)
      rw [← Nat.div_add_mod n base, ← Nat.div_add_mod m base, hdiv, hmod]

/-! ### Quoted text -/

namespace Text

/-- The character that a short escape stands for. -/
def unescapeShort : Char → Char
  | '0' => '\x00'
  | 't' => '\t'
  | 'n' => '\n'
  | 'r' => '\r'
  | c => c

/-- A character is written as itself, by a letter behind a backslash, or by its code. -/
inductive Escaped (c : Char) : List Char → Prop
  | plain : c ≠ '\\' → c ≠ '\x22' → Escaped c [c]
  | short (letter : Char) : letter ≠ 'u' → unescapeShort letter = c → Escaped c ['\\', letter]
  | code : Escaped c ('\\' :: 'u' :: '\x7b' :: (hexDigits c.toNat ++ ['\x7d']))

theorem escaped_escape (c : Char) : Escaped c (escape c) := by
  unfold escape
  split
  · subst c; exact .short '0' (by decide) rfl
  split
  · subst c; exact .short 't' (by decide) rfl
  split
  · subst c; exact .short 'n' (by decide) rfl
  split
  · subst c; exact .short 'r' (by decide) rfl
  split
  · subst c; exact .short '\\' (by decide) rfl
  split
  · subst c; exact .short '\x22' (by decide) rfl
  split
  · exact .code
  · exact .plain ‹_› ‹_›

theorem ne_brace_of_mem_hexDigits {c : Char} {n : Nat} (h : c ∈ hexDigits n) : c ≠ '\x7d' := by
  induction n using Nat.strongRecOn with
  | ind n ih =>
    rw [hexDigits] at h
    obtain hn | hn := Nat.lt_or_ge n 16
    · rw [Nat.toDigits_of_lt_base hn, List.mem_singleton] at h
      exact h ▸ Nat.digitChar_ne _ rfl
    · rw [Nat.toDigits_of_base_le (by decide) hn, List.mem_append, List.mem_singleton] at h
      obtain h | h := h
      · exact ih (n / 16) (by omega) h
      · exact h ▸ Nat.digitChar_ne _ rfl

private theorem code_inj {c d : Char} {s t : List Char}
    (h : hexDigits c.toNat ++ '\x7d' :: s = hexDigits d.toNat ++ '\x7d' :: t) : c = d ∧ s = t := by
  obtain ⟨hd, hr⟩ := cut_inj (p := (· != '\x7d'))
    (fun _ hc => bne_iff_ne.mpr (ne_brace_of_mem_hexDigits hc))
    (fun _ hc => bne_iff_ne.mpr (ne_brace_of_mem_hexDigits hc)) rfl rfl h
  have hn : c.toNat = d.toNat := toDigits_inj (by decide) (Nat.le_refl 16) hd
  exact ⟨Char.toNat_inj.mp hn, (List.cons.inj hr).2⟩

/-- No escape begins another one. -/
theorem escape_inj {c d : Char} {s t : List Char} (h : escape c ++ s = escape d ++ t) :
    c = d ∧ s = t := by
  have hc := escaped_escape c
  have hd := escaped_escape d
  generalize escape c = a at h hc
  generalize escape d = b at h hd
  cases hc with
  | plain hc _ =>
    cases hd with
    | plain _ _ => exact List.cons.inj h
    | short _ _ _ => exact absurd (List.cons.inj h).1 hc
    | code => exact absurd (List.cons.inj h).1 hc
  | short letter hu hc =>
    cases hd with
    | plain hd _ => exact absurd (List.cons.inj h).1.symm hd
    | short letter' _ hd =>
      obtain ⟨rfl, hr⟩ := List.cons.inj (List.cons.inj h).2
      exact ⟨hc.symm.trans hd, hr⟩
    | code => exact absurd (List.cons.inj (List.cons.inj h).2).1 hu
  | code =>
    cases hd with
    | plain hd _ => exact absurd (List.cons.inj h).1.symm hd
    | short letter' hu _ => exact absurd (List.cons.inj (List.cons.inj h).2).1.symm hu
    | code =>
      simp only [List.cons_append, List.append_assoc, List.nil_append, List.cons.injEq, true_and] at h
      exact code_inj h

/-- No escape begins with the closing quote. -/
theorem escape_ne_quote (c : Char) (s t : List Char) : escape c ++ s ≠ '\x22' :: t := by
  have hc := escaped_escape c
  generalize escape c = a at hc
  intro h
  cases hc with
  | plain _ hq => exact hq (List.cons.inj h).1
  | short _ _ _ => cases h
  | code => cases h

theorem escapes_inj {l m s t : List Char}
    (h : l.flatMap escape ++ '\x22' :: s = m.flatMap escape ++ '\x22' :: t) : l = m ∧ s = t := by
  induction l generalizing m with
  | nil =>
    cases m with
    | nil => exact ⟨rfl, (List.cons.inj h).2⟩
    | cons d m =>
      rw [List.flatMap_cons, List.append_assoc] at h
      exact absurd h.symm (escape_ne_quote d _ _)
  | cons c l ih =>
    cases m with
    | nil =>
      rw [List.flatMap_cons, List.append_assoc] at h
      exact absurd h (escape_ne_quote c _ _)
    | cons d m =>
      rw [List.flatMap_cons, List.flatMap_cons, List.append_assoc, List.append_assoc] at h
      obtain ⟨rfl, hr⟩ := escape_inj h
      obtain ⟨rfl, hst⟩ := ih hr
      exact ⟨rfl, hst⟩

end Text

/-! ### Values -/

/-- What may come after a value: not a digit. -/
def Stops (s : List Char) : Prop :=
  s.takeWhile Char.isDigit = []

theorem stops_cons {c : Char} (h : c.isDigit = false) (s : List Char) : Stops (c :: s) :=
  List.takeWhile_cons_of_neg (by simp [h])

/-- A way to print values that tells them apart, and each of them from what comes after it. -/
structure Delimited {α : Type} (print : α → List Char) : Prop where
  /-- Inside a list it shows that there is a value. -/
  opens : ∀ a s t, print a ++ s ≠ ']' :: t
  tells : ∀ {a b s t}, Stops s → Stops t → print a ++ s = print b ++ t → a = b ∧ s = t

namespace Delimited

variable {α : Type}

theorem comap {β : Type} {print : α → List Char} (h : Delimited print) {f : β → α}
    (hf : Function.Injective f) : Delimited (print ∘ f) where
  opens b := h.opens (f b)
  tells hs ht he := (h.tells hs ht he).imp_left fun hb => hf hb

theorem quoted : Delimited Text.quoted where
  opens text s t h := by cases h
  tells {a b s t} _ _ h := by
    simp only [Text.quoted, List.cons_append, List.append_assoc, List.nil_append, List.cons.injEq,
      true_and] at h
    exact (Text.escapes_inj h).imp_left String.toList_inj.mp

theorem digits : Delimited (Nat.toDigits 10) where
  opens n s t h := by
    cases hd : Nat.toDigits 10 n with
    | nil => exact Nat.toDigits_ne_nil hd
    | cons c cs =>
      have hc : c.isDigit = true :=
        Nat.isDigit_of_mem_toDigits (by decide) (by decide) (hd ▸ List.mem_cons_self)
      rw [hd] at h
      cases h
      cases hc
  tells hs ht h := by
    have hd (n : Nat) (c : Char) (hc : c ∈ Nat.toDigits 10 n) : c.isDigit = true :=
      Nat.isDigit_of_mem_toDigits (by decide) (by decide) hc
    exact (cut_inj (hd _) (hd _) hs ht h).imp_left (toDigits_inj (by decide) (by decide))

/-- The sign of a negative number is no digit. -/
theorem int : Delimited fun n : Int => (toString n).toList := by
  have pos (n : Nat) : (toString (Int.ofNat n)).toList = Nat.toDigits 10 n :=
    (congrArg String.toList Nat.repr_eq_ofList_toDigits).trans String.toList_ofList
  have neg (n : Nat) : (toString (Int.negSucc n)).toList = '-' :: Nat.toDigits 10 (n + 1) := by
    change ("-" ++ (n + 1).repr).toList = _
    rw [String.toList_append, Nat.repr_eq_ofList_toDigits]
    exact congrArg (['-'] ++ ·) String.toList_ofList
  have sign (n : Nat) (s t : List Char) : Nat.toDigits 10 n ++ s ≠ '-' :: t := by
    cases hd : Nat.toDigits 10 n with
    | nil => exact absurd hd Nat.toDigits_ne_nil
    | cons c cs =>
      have hc : c.isDigit = true :=
        Nat.isDigit_of_mem_toDigits (by decide) (by decide) (hd ▸ List.mem_cons_self)
      intro h
      cases h
      cases hc
  refine ⟨fun n s t h => ?_, fun {a b s t} hs ht h => ?_⟩
  · cases n with
    | ofNat n => exact digits.opens n s t (pos n ▸ h)
    | negSucc n =>
      rw [neg] at h
      cases h
  · cases a with
    | ofNat n =>
      rw [pos] at h
      cases b with
      | ofNat m =>
        rw [pos] at h
        exact (digits.tells hs ht h).imp_left (congrArg Int.ofNat)
      | negSucc m =>
        rw [neg] at h
        exact absurd h (sign n _ _)
    | negSucc n =>
      rw [neg] at h
      cases b with
      | ofNat m =>
        rw [pos] at h
        exact absurd h.symm (sign m _ _)
      | negSucc m =>
        rw [neg] at h
        exact (digits.tells hs ht (List.cons.inj h).2).imp_left fun he =>
          congrArg Int.negSucc (Nat.succ.inj he)

end Delimited

/-! ### Lists and options -/

namespace Rendering

/-- The parts that come after the first one, each behind a comma. -/
def later (parts : List (List Char)) : List Char :=
  parts.flatMap fun part => ',' :: ' ' :: part

theorem compactItems_cons (r : Rendering) (rest : List Rendering) :
    compactItems (r :: rest) = r.compactChars ++ later (rest.map compactChars) := by
  induction rest generalizing r with
  | nil => rw [compactItems]; exact (List.append_nil _).symm
  | cons r' rest ih =>
    rw [compactItems, ih r']
    · rfl
    · nofun

/-- A part with its name. -/
def fieldChars (field : String × Rendering) : List Char :=
  field.1.toList ++ ": ".toList ++ field.2.compactChars

theorem compactFields_cons (name : String) (r : Rendering) (rest : List (String × Rendering)) :
    compactFields ((name, r) :: rest) =
      name.toList ++ ": ".toList ++ (r.compactChars ++ later (rest.map fieldChars)) := by
  induction rest generalizing name r with
  | nil => rw [compactFields, later, List.map_nil, List.flatMap_nil, List.append_nil]
  | cons field rest ih =>
    obtain ⟨name', r'⟩ := field
    rw [compactFields, ih name' r']
    · have hcomma : ", ".toList = [',', ' '] := rfl
      simp only [later, fieldChars, List.map_cons, List.flatMap_cons, List.append_assoc,
        List.cons_append, List.nil_append, hcomma]
    · nofun

theorem stops_later (parts : List (List Char)) {s : List Char} (hs : Stops s) :
    Stops (later parts ++ s) := by
  cases parts with
  | nil => exact hs
  | cons part rest => exact stops_cons rfl _

end Rendering

namespace Delimited

variable {α : Type} {layout : α → Rendering}

/-- The items of a list, up to the bracket. -/
private theorem later_inj (h : Delimited fun a => (layout a).compactChars) {l m : List α}
    {s t : List Char}
    (he : Rendering.later ((l.map layout).map Rendering.compactChars) ++ ']' :: s =
      Rendering.later ((m.map layout).map Rendering.compactChars) ++ ']' :: t) : l = m ∧ s = t := by
  induction l generalizing m with
  | nil =>
    cases m with
    | nil => exact ⟨rfl, (List.cons.inj he).2⟩
    | cons b m => cases (List.cons.inj he).1
  | cons a l ih =>
    cases m with
    | nil => cases (List.cons.inj he).1
    | cons b m =>
      simp only [Rendering.later, List.map_cons, List.flatMap_cons, List.cons_append,
        List.append_assoc, List.cons.injEq, true_and] at he
      obtain ⟨rfl, hr⟩ := h.tells (Rendering.stops_later _ (stops_cons rfl s))
        (Rendering.stops_later _ (stops_cons rfl t)) he
      obtain ⟨rfl, hst⟩ := ih hr
      exact ⟨rfl, hst⟩

theorem list (h : Delimited fun a => (layout a).compactChars) :
    Delimited fun items : List α => (Rendering.list (items.map layout)).compactChars where
  opens items s t he := by
    rw [Rendering.compactChars] at he
    cases he
  tells {l m s t} _ _ he := by
    simp only [Rendering.compactChars, List.cons_append, List.append_assoc, List.nil_append,
      List.cons.injEq, true_and] at he
    cases l with
    | nil =>
      cases m with
      | nil => exact ⟨rfl, (List.cons.inj he).2⟩
      | cons b m =>
        rw [List.map_cons, Rendering.compactItems_cons, List.append_assoc] at he
        exact absurd he.symm (h.opens b _ _)
    | cons a l =>
      cases m with
      | nil =>
        rw [List.map_cons, Rendering.compactItems_cons, List.append_assoc] at he
        exact absurd he (h.opens a _ _)
      | cons b m =>
        rw [List.map_cons, List.map_cons, Rendering.compactItems_cons, Rendering.compactItems_cons,
          List.append_assoc, List.append_assoc] at he
        obtain ⟨rfl, hr⟩ := h.tells (Rendering.stops_later _ (stops_cons rfl s))
          (Rendering.stops_later _ (stops_cons rfl t)) he
        obtain ⟨rfl, hst⟩ := later_inj h hr
        exact ⟨rfl, hst⟩

theorem option (h : Delimited fun a => (layout a).compactChars) :
    Delimited fun o : Option α => (Rendering.option (o.map layout)).compactChars := by
  have none_chars : (Rendering.option (Option.map layout none)).compactChars = "None".toList := rfl
  have some_chars (a : α) : (Rendering.option (Option.map layout (some a))).compactChars =
      "Some(".toList ++ ((layout a).compactChars ++ [')']) := by
    simp only [Option.map_some, Rendering.option, Rendering.compactChars, Rendering.compactItems]
    rfl
  refine ⟨fun o s t he => ?_, fun {a b s t} _ _ he => ?_⟩
  · cases o with
    | none => rw [none_chars] at he; cases (List.cons.inj he).1
    | some a => rw [some_chars] at he; cases (List.cons.inj he).1
  · cases a with
    | none =>
      cases b with
      | none => exact ⟨rfl, List.append_cancel_left he⟩
      | some b =>
        rw [none_chars, some_chars] at he
        cases (List.cons.inj he).1
    | some a =>
      cases b with
      | none =>
        rw [none_chars, some_chars] at he
        cases (List.cons.inj he).1
      | some b =>
        simp only [some_chars, List.append_assoc, List.append_cancel_left_eq] at he
        obtain ⟨rfl, hr⟩ := h.tells (stops_cons rfl s) (stops_cons rfl t) he
        exact ⟨rfl, (List.cons.inj hr).2⟩

end Delimited

end Trampoline
