/-!
# Blanks

Blanks are the characters with Unicode's property `White_Space`, and, between tokens, also the
two marks that set the direction of writing.
-/

namespace StateMachines.Text

/-- Whether the character has the property `White_Space`. -/
def isWhiteSpace (c : Char) : Bool :=
  let n := c.toNat
  (9 ≤ n && n ≤ 13) || n = 0x20 || n = 0x85 || n = 0xa0 || n = 0x1680 ||
    (0x2000 ≤ n && n ≤ 0x200a) || n = 0x2028 || n = 0x2029 || n = 0x202f || n = 0x205f ||
    n = 0x3000

/-- Whether the character may stand between tokens. -/
def isBlank (c : Char) : Bool :=
  isWhiteSpace c || c.toNat = 0x200e || c.toNat = 0x200f

end StateMachines.Text
