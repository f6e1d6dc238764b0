/-!
# Text — Blank

The characters with the property of being white space, and texts without them at their ends.
-/

namespace DataAgent

/-- The character is white space. -/
def isBlank (c : Char) : Bool :=
  let n := c.toNat
  (9 ≤ n && n ≤ 13) || n = 0x20 || n = 0x85 || n = 0xA0 || n = 0x1680 ||
    (0x2000 ≤ n && n ≤ 0x200A) || n = 0x2028 || n = 0x2029 || n = 0x202F || n = 0x205F ||
    n = 0x3000

/-- The text without white space at its start. -/
def trimStart (s : List Char) : List Char := s.dropWhile isBlank

/-- The text without white space at either end. -/
def trimBlanks (s : List Char) : List Char := (trimStart (trimStart s).reverse).reverse

end DataAgent
