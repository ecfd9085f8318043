/-!
# Searching texts

Finding, replacing and cutting parts of a text.  A part is found by the number of bytes before it
in the text's encoding, which is then counted in characters.
-/

namespace QueryTree.Text

variable {c : Char} {pattern rest : List Char}

/-- The number of bytes before the first occurrence of a pattern. -/
def offsetOf? (pattern : List Char) : List Char → Option Nat
  | [] => if pattern.isEmpty then some 0 else none
  | c :: rest =>
    if pattern.isPrefixOf (c :: rest) then some 0
    else (offsetOf? pattern rest).map (· + c.utf8Size)

/-- The characters that the first bytes of a text encode. -/
def charsWithin : Nat → List Char → List Char
  | _, [] => []
  | size, c :: rest =>
    if c.utf8Size ≤ size then c :: charsWithin (size - c.utf8Size) rest else []

theorem charsWithin_zero (cs : List Char) : charsWithin 0 cs = [] := by
  cases cs with
  | nil => rfl
  | cons c rest => rw [charsWithin, if_neg (Nat.not_le.mpr c.utf8Size_pos)]

theorem charsWithin_add (size : Nat) :
    charsWithin (size + c.utf8Size) (c :: rest) = c :: charsWithin size rest := by
  rw [charsWithin, if_pos (Nat.le_add_left c.utf8Size size), Nat.add_sub_cancel]

/-- The number of characters before the first occurrence of a pattern. -/
def indexOf? (pattern cs : List Char) : Option Nat :=
  (offsetOf? pattern cs).map fun size => (charsWithin size cs).length

theorem indexOf?_of_prefix (starts : pattern.isPrefixOf (c :: rest) = true) :
    indexOf? pattern (c :: rest) = some 0 := by
  rw [indexOf?, offsetOf?, if_pos starts, Option.map_some, charsWithin_zero, List.length_nil]

/-- The bytes of a character that no occurrence begins with count as one character. -/
theorem indexOf?_of_not_prefix (later : ¬ pattern.isPrefixOf (c :: rest) = true) :
    indexOf? pattern (c :: rest) = (indexOf? pattern rest).map (· + 1) := by
  rw [indexOf?, offsetOf?, if_neg later, indexOf?, Option.map_map, Option.map_map]
  congr 1
  funext size
  rw [Function.comp_apply, Function.comp_apply, charsWithin_add, List.length_cons]

/-- Whether a text contains a pattern. -/
def containsText (text pattern : String) : Bool :=
  (offsetOf? pattern.toList text.toList).isSome

theorem containsText_eq (text pattern : String) :
    containsText text pattern = (indexOf? pattern.toList text.toList).isSome :=
  Option.isSome_map.symm

/-- Replaces the non-overlapping occurrences of a non-empty pattern from the left; `skip` counts
the characters of the current occurrence that are still to be passed over. -/
def replaceChars (pattern replacement : List Char) : Nat → List Char → List Char
  | _, [] => []
  | skip + 1, _ :: rest => replaceChars pattern replacement skip rest
  | 0, c :: rest =>
    if pattern.isPrefixOf (c :: rest) then
      replacement ++ replaceChars pattern replacement (pattern.length - 1) rest
    else c :: replaceChars pattern replacement 0 rest

/-- Replaces each occurrence of a pattern.  The empty pattern occurs before every character and at
the end. -/
def replaceText (text pattern replacement : String) : String :=
  if pattern.isEmpty then
    String.ofList
      (replacement.toList ++ text.toList.flatMap fun c => c :: replacement.toList)
  else String.ofList (replaceChars pattern.toList replacement.toList 0 text.toList)

end QueryTree.Text
