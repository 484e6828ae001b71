/-!
# Blanks

The characters that count as white space, and texts with the blanks at their ends removed.
Two classes are in use: `isBlank`, every character of the standard's class of white space, and
`isNumericBlank`, the blanks that may stand around a numeral.
-/

namespace Conditions

/-- The white space characters of the Unicode standard. -/
def isBlank (c : Char) : Bool :=
  let n := c.toNat
  (0x9 ≤ n && n ≤ 0xd) || n == 0x20 || n == 0x85 || n == 0xa0 || n == 0x1680
    || (0x2000 ≤ n && n ≤ 0x200a) || n == 0x2028 || n == 0x2029 || n == 0x202f
    || n == 0x205f || n == 0x3000

/-- The blanks around a numeral: white space except the next-line character, and the byte order
mark. -/
def isNumericBlank (c : Char) : Bool :=
  c.toNat == 0xfeff || (isBlank c && c.toNat != 0x85)

/-- A text without the characters of a class at its end. -/
def trimEndOf (blank : Char → Bool) (s : List Char) : List Char :=
  (s.reverse.dropWhile blank).reverse

/-- A text without the characters of a class at either end. -/
def trimOf (blank : Char → Bool) (s : List Char) : List Char :=
  trimEndOf blank (s.dropWhile blank)

/-- A text without the blanks at either end. -/
def trim (s : String) : String := String.ofList (trimOf isBlank s.toList)

/-- A text with its ASCII capitals made small. -/
def lowerAscii (s : String) : String := String.ofList (s.toList.map Char.toLower)

end Conditions
