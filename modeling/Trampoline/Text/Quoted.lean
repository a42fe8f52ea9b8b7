import Trampoline.Text.Hidden

/-!
Quoted text. A string is written between double quotes; the quote, the backslash and the usual
control characters have short escapes, and every other hidden character is written by its code.
-/
namespace Trampoline.Text

/-- The digits of a code point, in base sixteen and lower case. -/
def hexDigits (code : Nat) : List Char :=
  Nat.toDigits 16 code

def escape (c : Char) : List Char :=
  if c = '\x00' then ['\\', '0']
  else if c = '\t' then ['\\', 't']
  else if c = '\n' then ['\\', 'n']
  else if c = '\r' then ['\\', 'r']
  else if c = '\\' then ['\\', '\\']
  else if c = '\x22' then ['\\', '\x22']
  else if isHidden c then ['\\', 'u', '\x7b'] ++ hexDigits c.toNat ++ ['\x7d']
  else [c]

/-- The text between double quotes, each character escaped. -/
def quoted (text : String) : List Char :=
  '\x22' :: text.toList.flatMap escape ++ ['\x22']

end Trampoline.Text
