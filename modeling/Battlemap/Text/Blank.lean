/-!
# `Battlemap.Text.Blank`: white space

Blank characters are those that separate words or lines in any script.
Numbers and settings are trimmed of them on both sides.
-/

set_option autoImplicit false

namespace Battlemap

/-- Whether a character is white space. -/
def isBlank (c : Char) : Bool :=
  let code := c.toNat
  (decide (0x09 ≤ code) && decide (code ≤ 0x0d)) || code == 0x20 || code == 0x85
    || code == 0xa0 || code == 0x1680 || (decide (0x2000 ≤ code) && decide (code ≤ 0x200a))
    || code == 0x2028 || code == 0x2029 || code == 0x202f || code == 0x205f || code == 0x3000

/-- The characters without the blank ones at both ends. -/
def trimmedChars (text : List Char) : List Char :=
  ((text.dropWhile isBlank).reverse.dropWhile isBlank).reverse

/-- The text without the blank characters at both ends. -/
def trimmed (text : String) : String := String.ofList (trimmedChars text.toList)

end Battlemap
