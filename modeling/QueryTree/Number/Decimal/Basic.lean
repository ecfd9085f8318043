import QueryTree.Number.Binary

/-!
# Decimal numbers

Decimal numbers with a coefficient of at most 96 bits and up to 28 decimal places.  The number of
places is part of the value and is shown, but comparison looks at the number alone.

Here and in the modules on arithmetic, reading and conversion the documented behaviour of 96-bit
decimals with a scale is followed: each number is a sign, a coefficient below `2 ^ 96` and a scale
from 0 to 28, trailing zeros are kept, every integer below `2 ^ 96` is represented exactly, and a
checked operation has no result where the result does not fit.
-/

namespace QueryTree

/-- The number `coefficient / 10 ^ places`, negated on demand. -/
structure Decimal where
  negative : Bool
  coefficient : Nat
  places : Nat
deriving DecidableEq

namespace Decimal

/-- The first coefficient that is too large. -/
def coefficientBound : Nat := Nat.pow 2 96

/-- The greatest number of decimal places. -/
def maxPlaces : Nat := 28

/-- Zero without decimal places. -/
def zero : Decimal := ⟨false, 0, 0⟩

/-- Whether the number is zero, of either sign. -/
def isZero (d : Decimal) : Bool := d.coefficient == 0

/-- A number whose sign is dropped where it is zero. -/
def ofParts (negative : Bool) (coefficient places : Nat) : Decimal :=
  ⟨negative && coefficient != 0, coefficient, places⟩

/-- An integer, if its magnitude is not too large. -/
def ofInt? (n : Int) : Option Decimal :=
  if n.natAbs < coefficientBound then some ⟨n < 0, n.natAbs, 0⟩ else none

/-- The coefficient with its sign. -/
def signed (d : Decimal) : Int :=
  if d.negative then -(d.coefficient : Int) else d.coefficient

/-- The order of the numbers. -/
def compare (left right : Decimal) : Ordering :=
  Ord.compare (left.signed * Nat.pow 10 right.places) (right.signed * Nat.pow 10 left.places)

/-- The integral part, toward zero, with the sign of the number even where it is zero. -/
def trunc (d : Decimal) : Decimal :=
  ⟨d.negative, d.coefficient / Nat.pow 10 d.places, 0⟩

/-- The integral part as an integer. -/
def toInt (d : Decimal) : Int := d.trunc.signed

/-- Whether there is something after the decimal point. -/
def hasFraction (d : Decimal) : Bool :=
  d.coefficient % Nat.pow 10 d.places != 0

/-- The opposite number. -/
def neg (d : Decimal) : Decimal := { d with negative := !d.negative }

/-- The magnitude. -/
def abs (d : Decimal) : Decimal := { d with negative := false }

/-- The number in positional notation with all its places. -/
def text (d : Decimal) : String :=
  let figures := Nat.toDigits 10 d.coefficient
  let figures := List.replicate (d.places + 1 - figures.length) '0' ++ figures
  let whole := figures.take (figures.length - d.places)
  let rest := figures.drop (figures.length - d.places)
  let sign := if d.negative then ['-'] else []
  String.ofList (sign ++ if d.places = 0 then whole else whole ++ '.' :: rest)

end Decimal

end QueryTree
