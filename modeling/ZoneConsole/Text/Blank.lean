/-!
# Blanks

The white-space characters of Unicode, and texts without them at either end.
-/

namespace ZoneConsole.Text

/-- Is the character white space? -/
def isBlank (c : Char) : Bool :=
  let n := c.toNat
  (0x09 ≤ n && n ≤ 0x0d) || n == 0x20 || n == 0x85 || n == 0xa0 || n == 0x1680 ||
    (0x2000 ≤ n && n ≤ 0x200a) || n == 0x2028 || n == 0x2029 || n == 0x202f || n == 0x205f ||
    n == 0x3000

/-- A list of characters without the blanks it starts and ends with. -/
def trimChars (cs : List Char) : List Char :=
  ((cs.dropWhile isBlank).reverse.dropWhile isBlank).reverse

/-- A text without the blanks it starts and ends with. -/
def trim (s : String) : String := String.ofList (trimChars s.toList)

/-- A list of characters without the blanks it ends with. -/
def trimEnd (cs : List Char) : List Char := (cs.reverse.dropWhile isBlank).reverse

/-- A character with `A` to `Z` in lower case. -/
def lowerAscii (c : Char) : Char := c.toLower

/-- A text with `A` to `Z` in lower case. -/
def lower (s : String) : String := String.ofList (s.toList.map lowerAscii)

end ZoneConsole.Text
