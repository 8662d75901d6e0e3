/-!
# Blank text

A name is blank when it has no character besides white space. White space is the Unicode property
`White_Space`: twenty-five characters, most of them outside ASCII.
-/

set_option autoImplicit false

namespace ScriptHost.Text

/-- The Unicode property `White_Space`. -/
def isSpace (c : Char) : Bool :=
  let n := c.toNat
  (9 ≤ n && n ≤ 13) || n == 0x20 || n == 0x85 || n == 0xa0 || n == 0x1680 ||
    (0x2000 ≤ n && n ≤ 0x200a) || n == 0x2028 || n == 0x2029 || n == 0x202f ||
    n == 0x205f || n == 0x3000

/-- Nothing but white space, or nothing at all. -/
def isBlank (s : String) : Bool := s.toList.all isSpace

end ScriptHost.Text
