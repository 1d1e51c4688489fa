/-!
Blank text.

A character is blank when it has the White_Space property of the Unicode standard; text is blank
when it holds nothing else, so also when it is empty.
-/

set_option autoImplicit false

namespace ToolChat

/-- The White_Space property. -/
def isWhiteSpace (c : Char) : Bool :=
  let n := c.toNat
  (0x09 ≤ n && n ≤ 0x0D) || n == 0x20 || n == 0x85 || n == 0xA0 || n == 0x1680
    || (0x2000 ≤ n && n ≤ 0x200A) || n == 0x2028 || n == 0x2029 || n == 0x202F
    || n == 0x205F || n == 0x3000

def isBlank (text : String) : Bool :=
  text.toList.all isWhiteSpace

end ToolChat
