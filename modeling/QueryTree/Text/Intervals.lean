/-!
# Sets of characters

Sets of characters as intervals of character codes, and the set of the blank ones.
-/

namespace QueryTree.Text

/-! ## Intervals of character codes

A property of characters beyond ASCII is a list of closed intervals of code points, in ascending
order.
-/

/-- Closed intervals of code points, each given by its first and last member. -/
abbrev Intervals := List (Nat × Nat)

/-- Whether a code point lies in one of the intervals. -/
def Intervals.contains (intervals : Intervals) (code : Nat) : Bool :=
  intervals.any fun (first, last) => first ≤ code && code ≤ last

/-! ## Blank characters

The characters that separate words and that trimming removes: those with the property
`White_Space` of the Unicode standard.
-/

/-- The code points of all blank characters. -/
def blankIntervals : Intervals := [
  (0x09, 0x0D), (0x20, 0x20), (0x85, 0x85), (0xA0, 0xA0), (0x1680, 0x1680), (0x2000, 0x200A),
  (0x2028, 0x2029), (0x202F, 0x202F), (0x205F, 0x205F), (0x3000, 0x3000)]

/-- Whether a character is blank. -/
def isBlank (c : Char) : Bool :=
  blankIntervals.contains c.toNat

/-- The characters left after dropping blanks at the front. -/
def trimStart (cs : List Char) : List Char :=
  cs.dropWhile isBlank

/-- The characters left after dropping blanks at both ends. -/
def trimChars (cs : List Char) : List Char :=
  (trimStart (trimStart cs).reverse).reverse

/-- A text without the blanks at its ends. -/
def trim (text : String) : String :=
  String.ofList (trimChars text.toList)

end QueryTree.Text
