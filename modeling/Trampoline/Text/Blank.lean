/-!
Blank text: text that has nothing left once the white space around it is taken away. White space is
every character with the Unicode property of that name, so it goes far beyond the space and the tab.
-/
namespace Trampoline.Text

/-- The characters with the Unicode property `White_Space`. -/
def isBlank (c : Char) : Bool :=
  let code := c.toNat
  (0x9 ≤ code && code ≤ 0xd) || code == 0x20 || code == 0x85 || code == 0xa0 || code == 0x1680 ||
    (0x2000 ≤ code && code ≤ 0x200a) || code == 0x2028 || code == 0x2029 || code == 0x202f ||
    code == 0x205f || code == 0x3000

/-- Whether nothing is left of the text after trimming. -/
def allBlank (text : String) : Bool :=
  text.toList.all isBlank

end Trampoline.Text
