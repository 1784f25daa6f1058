/-!
# Blanks

Which characters are blank, by the Unicode property White_Space, and text without the blanks at its
two ends.
-/

namespace Purse

/-- The character has the Unicode property White_Space. -/
def isBlank (c : Char) : Bool :=
  let n := c.toNat
  (9 ≤ n && n ≤ 13) || n == 0x20 || n == 0x85 || n == 0xA0 || n == 0x1680
    || (0x2000 ≤ n && n ≤ 0x200A) || n == 0x2028 || n == 0x2029 || n == 0x202F || n == 0x205F
    || n == 0x3000

/-- Characters without the blanks at either end. -/
def trimmed (cs : List Char) : List Char :=
  ((cs.dropWhile isBlank).reverse.dropWhile isBlank).reverse

/-- Text without the blanks at either end. -/
def trim (text : String) : String :=
  String.ofList (trimmed text.toList)

/-- Whether nothing is left of a text once the blanks at its ends are gone. -/
def isBlankText (text : String) : Bool :=
  (trimmed text.toList).isEmpty

end Purse
