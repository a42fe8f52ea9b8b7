import Trampoline.Text.Quoted

/-!
What is wrong with a JSON document. Either the text itself is not JSON, because it stops too early or
because a character does not belong where it stands, or the text is fine so far but does not hold the
value that was expected there.
-/
namespace Trampoline.Json

/-- What stands in a document where something else was expected. -/
inductive Found where
  | null
  | boolean (value : Bool)
  | integer (value : Int)
  | floating
  | text (value : String)
  | sequence
  | map
  deriving DecidableEq

/-- How a found value is named; integers, booleans and texts are quoted, fractions are not. -/
def Found.message : Found → String
  | .null => "null"
  | .boolean true => "boolean `true`"
  | .boolean false => "boolean `false`"
  | .integer n => "integer `" ++ toString n ++ "`"
  | .floating => "floating point"
  | .text s => "string " ++ String.ofList (Text.quoted s)
  | .sequence => "sequence"
  | .map => "map"

/-- What is wrong with a JSON document. -/
inductive Fault where
  /-- The text ends where more was needed. -/
  | cutShort
  /-- The text breaks a rule of the notation. -/
  | malformed
  /-- A value of another kind was expected. -/
  | invalidType (found : Found) (expected : String)
  /-- The value is of the expected kind, but out of its range. -/
  | invalidValue (found : Found) (expected : String)
  /-- A record given as an array ends before a field that has no fallback. -/
  | invalidLength (length : Nat) (record : String) (fields : Nat)
  /-- A record given as an object ends without a field that has no fallback. -/
  | missingField (key : String)
  /-- A field of a record is given twice. -/
  | duplicateField (key : String)
  /-- A name is none of the possible choices. -/
  | unknownVariant (name : String) (choices : List String)
  deriving DecidableEq

/-- The choices of a name, each in backquotes. -/
def quoteChoices (choices : List String) : String :=
  ", ".intercalate (choices.map fun name => "`" ++ name ++ "`")

/-- The wording of a fault. A fault in the notation itself is only told apart by whether more text
could have mended it. -/
def Fault.message : Fault → String
  | .cutShort => "eof"
  | .malformed => "syntax"
  | .invalidType found expected =>
    "invalid type: " ++ found.message ++ ", expected " ++ expected
  | .invalidValue found expected =>
    "invalid value: " ++ found.message ++ ", expected " ++ expected
  | .invalidLength length record fields =>
    "invalid length " ++ toString length ++ ", expected struct " ++ record ++ " with " ++
      toString fields ++ (if fields = 1 then " element" else " elements")
  | .missingField key => "missing field `" ++ key ++ "`"
  | .duplicateField key => "duplicate field `" ++ key ++ "`"
  | .unknownVariant name choices =>
    "unknown variant `" ++ name ++ "`, expected one of " ++ quoteChoices choices

end Trampoline.Json
