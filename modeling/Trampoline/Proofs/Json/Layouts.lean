import Trampoline.Proofs.Json.Tokens

/-!
Layouts. The two written forms of a JSON value differ in nothing but white space: there is one writer,
which is told what to put in front of every entry and after every colon.
-/
namespace Trampoline.Json

/-- The white space of a written form. -/
structure Layout where
  /-- What stands in front of an entry at the given depth, and before the closing bracket. -/
  lineBreak : Nat → List Char
  /-- What stands after a colon. -/
  gap : List Char
  blank_lineBreak : ∀ depth, Blank (lineBreak depth)
  blank_gap : Blank gap

namespace Layout

/-- No white space at all. -/
def compact : Layout :=
  ⟨fun _ => [], [], fun _ => .nil, .nil⟩

/-- One entry to a line. -/
def pretty : Layout where
  lineBreak := Tree.lineBreak
  gap := [' ']
  blank_lineBreak depth c hc := by
    simp only [Tree.lineBreak, List.mem_cons, List.mem_replicate] at hc
    obtain rfl | ⟨_, rfl⟩ := hc <;> rfl
  blank_gap c hc := by
    obtain rfl := List.mem_singleton.mp hc
    rfl

/-- What stands before the closing bracket. An empty array or object has nothing inside it. -/
def ending {α : Type} (layout : Layout) (depth : Nat) : List α → List Char
  | [] => []
  | _ :: _ => layout.lineBreak depth

theorem blank_ending {α : Type} (layout : Layout) (depth : Nat) (entries : List α) :
    Blank (layout.ending depth entries) := by
  cases entries with
  | nil => exact .nil
  | cons _ _ => exact layout.blank_lineBreak depth

mutual

/-- Writes a value that starts at the given depth. -/
def chars (layout : Layout) (depth : Nat) : Tree → List Char
  | .null => "null".toList
  | .flag value => Tree.flagChars value
  | .number value => Tree.numberChars value
  | .text value => writeString value
  | .array ts => '[' :: (layout.items (depth + 1) true ts ++ (layout.ending depth ts ++ [']']))
  | .object ms =>
    '\x7b' :: (layout.members (depth + 1) true ms ++ (layout.ending depth ms ++ ['\x7d']))

def items (layout : Layout) (depth : Nat) (first : Bool) : List Tree → List Char
  | [] => []
  | t :: ts =>
    separator first ++ (layout.lineBreak depth ++ (layout.chars depth t ++
      layout.items depth false ts))

def members (layout : Layout) (depth : Nat) (first : Bool) : List (String × Tree) → List Char
  | [] => []
  | (key, t) :: ms =>
    separator first ++ (layout.lineBreak depth ++ (writeString key ++ ':' :: (layout.gap ++
      (layout.chars depth t ++ layout.members depth false ms))))

end

/-- A comma in front of further entries. -/
theorem items_cons (layout : Layout) (depth : Nat) (t : Tree) (ts : List Tree) :
    layout.items depth false (t :: ts) = ',' :: layout.items depth true (t :: ts) :=
  rfl

theorem members_cons (layout : Layout) (depth : Nat) (m : String × Tree)
    (ms : List (String × Tree)) :
    layout.members depth false (m :: ms) = ',' :: layout.members depth true (m :: ms) :=
  rfl

mutual

theorem chars_compact (depth : Nat) : ∀ t, compact.chars depth t = t.compactChars
  | .null => rfl
  | .flag _ => rfl
  | .number _ => rfl
  | .text _ => rfl
  | .array ts => by
    have he : compact.ending depth ts = [] := by cases ts <;> rfl
    rw [chars, items_compact (depth + 1) ts, he, Tree.compactChars, List.nil_append]
  | .object ms => by
    have he : compact.ending depth ms = [] := by cases ms <;> rfl
    rw [chars, members_compact (depth + 1) ms, he, Tree.compactChars, List.nil_append]

theorem items_compact (depth : Nat) : ∀ ts, compact.items depth true ts = Tree.compactItems ts
  | [] => rfl
  | [t] => by
    rw [items, items, chars_compact depth t, Tree.compactItems]
    exact List.append_nil _
  | t :: u :: ts => by
    rw [items, items_cons, chars_compact depth t, items_compact depth (u :: ts)]
    exact (Tree.compactItems.eq_3 t (u :: ts) nofun).symm

theorem members_compact (depth : Nat) :
    ∀ ms, compact.members depth true ms = Tree.compactMembers ms
  | [] => rfl
  | [(key, t)] => by
    rw [members, members, chars_compact depth t, Tree.compactMembers, List.append_nil]
    rfl
  | (key, t) :: m :: ms => by
    rw [members, members_cons, chars_compact depth t, members_compact depth (m :: ms)]
    exact (Tree.compactMembers.eq_3 key t (m :: ms) nofun).symm

end

mutual

theorem chars_pretty (depth : Nat) : ∀ t, pretty.chars depth t = t.prettyChars depth
  | .null => rfl
  | .flag _ => rfl
  | .number _ => rfl
  | .text _ => rfl
  | .array [] => rfl
  | .array (t :: ts) => by
    rw [chars, items_pretty (depth + 1) (t :: ts), Tree.prettyChars]
    rfl
  | .object [] => rfl
  | .object (m :: ms) => by
    rw [chars, members_pretty (depth + 1) (m :: ms), Tree.prettyChars]
    rfl

theorem items_pretty (depth : Nat) : ∀ ts, pretty.items depth true ts = Tree.prettyItems depth ts
  | [] => rfl
  | [t] => by
    rw [items, items, chars_pretty depth t, Tree.prettyItems, List.append_nil]
    rfl
  | t :: u :: ts => by
    rw [items, items_cons, chars_pretty depth t, items_pretty depth (u :: ts)]
    exact (Tree.prettyItems.eq_3 depth t (u :: ts) nofun).symm

theorem members_pretty (depth : Nat) :
    ∀ ms, pretty.members depth true ms = Tree.prettyMembers depth ms
  | [] => rfl
  | [(key, t)] => by
    rw [members, members, chars_pretty depth t, Tree.prettyMembers, List.append_nil]
    rfl
  | (key, t) :: m :: ms => by
    rw [members, members_cons, chars_pretty depth t, members_pretty depth (m :: ms)]
    exact (Tree.prettyMembers.eq_3 depth key t (m :: ms) nofun).symm

end

end Layout

theorem Tree.compact_eq (t : Tree) : t.compact = String.ofList (Layout.compact.chars 0 t) := by
  rw [Layout.chars_compact, compact]

theorem Tree.pretty_eq (t : Tree) : t.pretty = String.ofList (Layout.pretty.chars 0 t) := by
  rw [Layout.chars_pretty, pretty]

end Trampoline.Json
