import Trampoline.Scenario.Op

/-!
Declared instruction sets, by name: the instructions of scenarios, and smaller sets that show what
declarations may hold.
-/
namespace Trampoline.Catalogue

def counter : Schema :=
  .declare "Counter" [("ReadValue", [], "i64")]

def booking : Schema :=
  .declare "Booking" [
    ("ReadReservations", [("date", "String")], "Vec<String>"),
    ("CreateReservation", [("name", "String"), ("seats", "u32")], "u64")]

def odd : Schema :=
  .declare "Odd" [
    ("Pair",
      [("p", "(i64, u8)"), ("r", "std::collections::BTreeMap<String, Vec<u8>>")],
      "Result<(), String>"),
    ("Raw", [("bytes", "[u8; 4]"), ("text", "&'static str")], "Option<Box<[u8]>>"),
    ("Nothing", [], "()")]

def all : List Schema :=
  [Scenario.Op.schema, counter, booking, odd]

def find? (name : String) : Option Schema :=
  all.find? fun schema => schema.baseName == name

def version : String :=
  "0.1.0"

end Trampoline.Catalogue
