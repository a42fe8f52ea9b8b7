import Trampoline.Json.Skip
import Trampoline.Json.Tree

/-!
Document formats. A format says what a JSON document holds: texts, flags, words, choices between
names, optional values, sequences and records. It determines the type of the values it describes, how
they are read from JSON text and how they are written back.

Reading goes through the text once, from left to right, and reports the first thing that is wrong. A
record may be given as an object, whose members come in any order and among members that nobody
knows, or as an array of its fields in their order.
-/
namespace Trampoline.Json

/-- What happens to a field that a document leaves out. -/
inductive Presence where
  /-- The document is refused. -/
  | required
  /-- The field takes the neutral value of its format. -/
  | defaulted
  /-- The field takes the neutral value of its format, and is left out when it has that value. -/
  | omittable
  deriving DecidableEq

mutual

/-- What a document holds. -/
inductive Format where
  | text
  | flag
  /-- An unsigned 64-bit word; `expected` names it in messages. -/
  | word (expected : String)
  /-- One of several names, of which there is at least one. -/
  | choice (first : String) (others : List String)
  | optional (format : Format)
  | sequence (format : Format)
  | record (name : String) (fields : Fields)

/-- The fields of a record in their order. -/
inductive Fields where
  | nil
  | cons (key : String) (presence : Presence) (format : Format) (rest : Fields)

end

mutual

@[reducible] def Format.Value : Format → Type
  | .text => String
  | .flag => Bool
  | .word _ => Nat
  | .choice _ others => Fin (others.length + 1)
  | .optional format => Option format.Value
  | .sequence format => List format.Value
  | .record _ fields => fields.Values

@[reducible] def Fields.Values : Fields → Type
  | .nil => Unit
  | .cons _ _ format rest => format.Value × rest.Values

end

/-- The values of those fields of a record that were read so far. -/
@[reducible] def Fields.Partial : Fields → Type
  | .nil => Unit
  | .cons _ _ format rest => Option format.Value × rest.Partial

def Fields.size : Fields → Nat
  | .nil => 0
  | .cons _ _ _ rest => rest.size + 1

mutual

/-- The value a format falls back to: nothing, none, or zero. -/
def Format.neutral : (format : Format) → format.Value
  | .text => ""
  | .flag => false
  | .word _ => (0 : Nat)
  | .choice _ _ => 0
  | .optional _ => none
  | .sequence _ => []
  | .record _ fields => fields.neutral

def Fields.neutral : (fields : Fields) → fields.Values
  | .nil => ()
  | .cons _ _ format rest => (format.neutral, rest.neutral)

end

mutual

/-- Whether a value is the neutral one of its format. -/
def Format.isNeutral : (format : Format) → format.Value → Bool
  | .text, value => value.isEmpty
  | .flag, value => !value
  | .word _, value => value == 0
  | .choice _ _, value => value.val == 0
  | .optional _, value => value.isNone
  | .sequence _, value => value.isEmpty
  | .record _ fields, value => fields.isNeutral value

/-- Whether all fields of a record have neutral values. -/
def Fields.isNeutral : (fields : Fields) → fields.Values → Bool
  | .nil, _ => true
  | .cons _ _ format rest, (value, values) => format.isNeutral value && rest.isNeutral values

end

def Fields.unread : (fields : Fields) → fields.Partial
  | .nil => ()
  | .cons _ _ _ rest => (none, rest.unread)

/-- The fault that the text does not go on with what was expected. The value that stands there
instead is read first if it is a single token, so that damage in it is reported in its place. -/
def mismatch (expected : String) (s : List Char) : Fault :=
  match s with
  | [] => .cutShort
  | c :: rest =>
    if c = 'n' then
      match readWord "ull".toList rest with
      | .error e => e
      | .ok _ => .invalidType .null expected
    else if c = 't' then
      match readWord "rue".toList rest with
      | .error e => e
      | .ok _ => .invalidType (.boolean true) expected
    else if c = 'f' then
      match readWord "alse".toList rest with
      | .error e => e
      | .ok _ => .invalidType (.boolean false) expected
    else if c = '-' ∨ c.isDigit then
      match readNumber (c :: rest) with
      | .error e => e
      | .ok (n, _) => .invalidType n.found expected
    else if c = '\x22' then
      match readString rest with
      | .error e => e
      | .ok (text, _) => .invalidType (.text text) expected
    else if c = '[' then .invalidType .sequence expected
    else if c = '\x7b' then .invalidType .map expected
    else .malformed

def readText (s : List Char) : Except Fault (String × List Char) :=
  match skipSpace s with
  | [] => .error .cutShort
  | c :: rest => if c = '\x22' then readString rest else .error (mismatch "a string" (c :: rest))

def readFlag (s : List Char) : Except Fault (Bool × List Char) :=
  match skipSpace s with
  | [] => .error .cutShort
  | c :: rest =>
    if c = 't' then do return (true, ← readWord "rue".toList rest)
    else if c = 'f' then do return (false, ← readWord "alse".toList rest)
    else .error (mismatch "a boolean" (c :: rest))

def readNat (expected : String) (s : List Char) : Except Fault (Nat × List Char) :=
  match skipSpace s with
  | [] => .error .cutShort
  | c :: rest =>
    if c = '-' ∨ c.isDigit then
      match readNumber (c :: rest) with
      | .error e => .error e
      | .ok (.floating, _) => .error (.invalidType .floating expected)
      | .ok (.integer (.ofNat n), rest) => .ok (n, rest)
      | .ok (.integer n, _) => .error (.invalidValue (.integer n) expected)
    else .error (mismatch expected (c :: rest))

def readNull (s : List Char) : Except Fault (List Char) :=
  match skipSpace s with
  | [] => .error .cutShort
  | c :: rest =>
    if c = 'n' then readWord "ull".toList rest else .error (mismatch "unit" (c :: rest))

/-- Reads the bracket that closes an array or object. -/
def readClosing (closing : Char) (s : List Char) : Except Fault (List Char) :=
  match skipSpace s with
  | [] => .error .cutShort
  | c :: rest => if c = closing then .ok rest else .error .malformed

def findChoice (name : String) : (names : List String) → Option (Fin names.length)
  | [] => none
  | n :: names => if n = name then some 0 else (findChoice name names).map Fin.succ

/-- Reads the name of a choice behind its opening quote. -/
def readName (first : String) (others : List String) (s : List Char) :
    Except Fault (Fin (others.length + 1) × List Char) := do
  let (name, rest) ← readString s
  match findChoice name (first :: others) with
  | some i => .ok (i, rest)
  | none => .error (.unknownVariant name (first :: others))

/-- Reads a choice: its name, or an object whose one key is the name and holds nothing. -/
def readChoice (first : String) (others : List String) (s : List Char) :
    Except Fault (Fin (others.length + 1) × List Char) :=
  match skipSpace s with
  | [] => .error .cutShort
  | c :: rest =>
    if c = '\x22' then readName first others rest
    else if c = '\x7b' then
      match skipSpace rest with
      | [] => .error .cutShort
      | d :: rest =>
        if d = '\x22' then do
          let (i, rest) ← readName first others rest
          let rest ← readNull (← readColon rest)
          return (i, ← readClosing '\x7d' rest)
        else .error .malformed
    else .error .malformed

/-- Goes on to the next entry of an array or object, whose closing bracket is given: the text at that
entry, or nothing where the bracket closes. Between two entries stands a comma, and none before the
bracket. -/
def nextEntry (closing : Char) (first : Bool) (s : List Char) :
    Except Fault (Option (List Char)) :=
  match skipSpace s with
  | [] => .error .cutShort
  | c :: rest =>
    if c = closing then .ok none
    else if first then .ok (some (c :: rest))
    else if c = ',' then
      match skipSpace rest with
      | [] => .error .cutShort
      | d :: rest => if d = closing then .error .malformed else .ok (some (d :: rest))
    else .error .malformed

/-- Reads the items of an array up to its closing bracket, each with `item`. The fuel bounds the
number of items; the length of the text is always enough. -/
def readItems {α : Type} (item : List Char → Except Fault (α × List Char)) :
    Nat → Bool → List Char → Except Fault (List α × List Char)
  | 0, _, _ => .error .malformed
  | fuel + 1, first, s =>
    match nextEntry ']' first s with
    | .error e => .error e
    | .ok none => do return ([], ← readClosing ']' s)
    | .ok (some s) => do
      let (a, s) ← item s
      let (as, s) ← readItems item fuel false s
      return (a :: as, s)

/-- Reads the members of an object up to its closing bracket. `member` reads the value behind a key
it knows, colon included, into what was read so far; other members are passed over. The fuel bounds
the number of members; the length of the text is always enough. -/
def readMembers {α : Type}
    (member : String → α → List Char → Except Fault (Option (α × List Char))) :
    Nat → Bool → α → List Char → Except Fault (α × List Char)
  | 0, _, _, _ => .error .malformed
  | fuel + 1, first, soFar, s =>
    match nextEntry '\x7d' first s with
    | .error e => .error e
    | .ok none => .ok (soFar, s)
    | .ok (some []) => .error .cutShort
    | .ok (some (c :: rest)) =>
      if c = '\x22' then do
        let (key, rest) ← readString rest
        match ← member key soFar rest with
        | some (soFar, rest) => readMembers member fuel false soFar rest
        | none =>
          let rest ← skipValue (← readColon rest)
          readMembers member fuel false soFar rest
      else .error .malformed

/-- The record made of the fields that were read, where fields that may be missing take their neutral
values. The first field that may not be missing is reported. -/
def Fields.complete : (fields : Fields) → fields.Partial → Except Fault fields.Values
  | .nil, _ => .ok ()
  | .cons key presence format rest, (value, values) =>
    match value with
    | some value => do return (value, ← rest.complete values)
    | none =>
      match presence with
      | .required => .error (.missingField key)
      | .defaulted => do return (format.neutral, ← rest.complete values)
      | .omittable => do return (format.neutral, ← rest.complete values)

mutual

def Format.read : (format : Format) → List Char → Except Fault (format.Value × List Char)
  | .text, s => readText s
  | .flag, s => readFlag s
  | .word expected, s => readNat expected s
  | .choice first others, s => readChoice first others s
  | .optional format, s =>
    match skipSpace s with
    | 'n' :: rest => do return (none, ← readWord "ull".toList rest)
    | s => do
      let (value, rest) ← format.read s
      return (some value, rest)
  | .sequence format, s =>
    match skipSpace s with
    | [] => .error .cutShort
    | c :: rest =>
      if c = '[' then readItems format.read (rest.length + 1) true rest
      else .error (mismatch "a sequence" (c :: rest))
  | .record name fields, s =>
    match skipSpace s with
    | [] => .error .cutShort
    | c :: rest =>
      if c = '[' then do
        let (values, rest) ← fields.readItems name fields.size 0 true rest
        let rest ← match skipSpace rest with
          | ',' :: _ => .error .malformed
          | rest => readClosing ']' rest
        return (values, rest)
      else if c = '\x7b' then do
        let (soFar, rest) ←
          readMembers (fun key soFar rest => fields.readMember key soFar rest)
            (rest.length + 1) true fields.unread rest
        let values ← fields.complete soFar
        return (values, ← readClosing '\x7d' rest)
      else .error (mismatch ("struct " ++ name) (c :: rest))

/-- Reads the fields of a record that is given as an array. Fields missing at its end take their
neutral values if they may; `index` is the number of fields before these. -/
def Fields.readItems (record : String) (size : Nat) :
    (fields : Fields) → (index : Nat) → (first : Bool) → List Char →
      Except Fault (fields.Values × List Char)
  | .nil, _, _, s => .ok ((), s)
  | .cons _ presence format rest, index, first, s => do
    match ← nextEntry ']' first s with
    | some s =>
      let (value, s) ← format.read s
      let (values, s) ← rest.readItems record size (index + 1) false s
      return ((value, values), s)
    | none =>
      if presence = .required then .error (.invalidLength index record size)
      else
        let (values, s) ← rest.readItems record size (index + 1) first s
        return ((format.neutral, values), s)

/-- Reads the value of the field with the given key, if there is such a field; it is refused when the
field was read before. -/
def Fields.readMember :
    (fields : Fields) → (key : String) → fields.Partial → List Char →
      Except Fault (Option (fields.Partial × List Char))
  | .nil, _, _, _ => .ok none
  | .cons name _ format rest, key, (value, values), s =>
    if name = key then
      match value with
      | some _ => .error (.duplicateField name)
      | none => do
        let (value, s) ← format.read (← readColon s)
        return some ((some value, values), s)
    else do
      match ← rest.readMember key values s with
      | some (values, s) => return some ((value, values), s)
      | none => return none

end

mutual

def Format.write : (format : Format) → format.Value → Tree
  | .text, value => .text value
  | .flag, value => .flag value
  | .word _, value => .number value
  | .choice first others, value => .text ((first :: others).get value)
  | .optional format, value =>
    match value with
    | none => .null
    | some value => format.write value
  | .sequence format, values => .array (values.map format.write)
  | .record _ fields, values => .object (fields.write values)

/-- The members of a record, without those that are left out. -/
def Fields.write : (fields : Fields) → fields.Values → List (String × Tree)
  | .nil, _ => []
  | .cons key presence format rest, (value, values) =>
    if presence = .omittable ∧ format.isNeutral value then rest.write values
    else (key, format.write value) :: rest.write values

end

/-- Reads a whole document: a value of the format with nothing but white space around it. -/
def Format.ofText (format : Format) (text : String) : Except Fault format.Value := do
  let (value, rest) ← format.read text.toList
  match skipSpace rest with
  | [] => .ok value
  | _ :: _ => .error .malformed

end Trampoline.Json
