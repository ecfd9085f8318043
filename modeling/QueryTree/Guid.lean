import QueryTree.Number.Numeral

/-!
# Globally unique identifiers

Identifiers of 128 bits, written as 32 hexadecimal digits in groups of 8, 4, 4, 4 and 12.

The four documented forms of a UUID are read, with digits of either case: the digits alone, the
groups joined by hyphens, the groups in braces, and the groups after `urn:uuid:`.  The form that is
written is the second one, in lower case.
-/

namespace QueryTree

/-- An identifier, ordered by its value. -/
structure Guid where
  bits : BitVec 128
deriving DecidableEq

namespace Guid

/-- The lengths of the groups of digits. -/
def groups : List Nat := [8, 4, 4, 4, 12]

/-- Exactly 32 hexadecimal digits. -/
def ofDigits? (cs : List Char) : Option Guid :=
  if cs.length = 32 then (Numeral.digits? 16 cs).map fun n => ⟨BitVec.ofNat 128 n⟩ else none

/-- Five groups of digits joined by hyphens. -/
def ofGroups? (cs : List Char) : Option Guid :=
  let isHyphen (i : Nat) : Bool := cs[i]? == some '-'
  if cs.length = 36 && isHyphen 8 && isHyphen 13 && isHyphen 18 && isHyphen 23 then
    ofDigits? (cs.take 8 ++ (cs.drop 9).take 4 ++ (cs.drop 14).take 4 ++ (cs.drop 19).take 4
      ++ cs.drop 24)
  else none

/-- An identifier in one of its written forms: digits alone, groups, groups in braces, or groups
after `urn:uuid:`. -/
def ofText? (text : String) : Option Guid :=
  let cs := text.toList
  if cs.length = 32 then ofDigits? cs
  else if cs.length = 36 then ofGroups? cs
  else if cs.length = 38 && cs.head? == some '\x7b' && cs.getLast? == some '\x7d' then
    ofGroups? ((cs.drop 1).take 36)
  else if "urn:uuid:".toList.isPrefixOf cs then ofGroups? (cs.drop 9)
  else none

/-- The identifier in groups of lower-case digits. -/
def text (guid : Guid) : String :=
  let figures := Nat.toDigits 16 guid.bits.toNat
  let figures := List.replicate (32 - figures.length) '0' ++ figures
  String.ofList (figures.take 8 ++ '-' :: (figures.drop 8).take 4 ++ '-' :: (figures.drop 12).take 4
    ++ '-' :: (figures.drop 16).take 4 ++ '-' :: figures.drop 20)

/-- The order of identifiers. -/
def compare (left right : Guid) : Ordering := Ord.compare left.bits.toNat right.bits.toNat

end Guid

end QueryTree
