import QueryTree.Number.Decimal.Basic

/-!
# Decimal arithmetic

Sums, products and quotients are computed exactly and then brought into range: decimal places are
given up, one by one, until the coefficient fits, and the last place kept is rounded to the nearest
digit, a tie going to the even one.  A result that does not fit even without decimal places is an
overflow.

These are the documented rules of checked arithmetic on 96-bit decimals: a sum has the greater of
the two scales, a product the sum of the scales, a quotient as many places as it needs and at most
28, and a remainder the sign of the dividend.
-/

namespace QueryTree.Decimal

/-- The least number of places, from `drop` on, to give up so that the coefficient fits. -/
def excess (coefficient : Nat) : Nat → Nat → Nat
  | 0, drop => drop
  | fuel + 1, drop =>
    if coefficient / Nat.pow 10 drop < coefficientBound then drop
    else excess coefficient fuel (drop + 1)

/-- The coefficient and places of an exact number brought into range. -/
def fit? (coefficient places : Nat) : Option (Nat × Nat) :=
  let drop := excess coefficient coefficient.log2 (places - maxPlaces)
  if places < drop then none
  else
    let rounded := divRoundEven coefficient (Nat.pow 10 drop)
    if rounded < coefficientBound then some (rounded, places - drop)
    else if places = drop then none
    else some (divRoundEven rounded 10, places - drop - 1)

/-- An exact number brought into range. -/
def round? (negative : Bool) (coefficient places : Nat) : Option Decimal :=
  (fit? coefficient places).map fun (coefficient, places) => ofParts negative coefficient places

/-- The sum.  A zero takes no part in it, not even with its places. -/
def add? (left right : Decimal) : Option Decimal :=
  if left.isZero then some right
  else if right.isZero then some left
  else
    let places := max left.places right.places
    let total := left.signed * Nat.pow 10 (places - left.places)
      + right.signed * Nat.pow 10 (places - right.places)
    round? (total < 0) total.natAbs places

/-- The difference. -/
def sub? (left right : Decimal) : Option Decimal :=
  if left.isZero then some (if right.isZero then right else right.neg)
  else if right.isZero then some left
  else add? left right.neg

/-- The product. -/
def mul? (left right : Decimal) : Option Decimal :=
  if left.isZero || right.isZero then some zero
  else
    let places := left.places + right.places
    let small := left.coefficient < Nat.pow 2 32 && right.coefficient < Nat.pow 2 32
    if small && 47 < places then some zero
    else round? (left.negative != right.negative) (left.coefficient * right.coefficient) places

/-- The greatest number of places up to `limit` by which a coefficient can be extended. -/
def room (coefficient : Nat) : Nat → Nat
  | 0 => 0
  | limit + 1 =>
    if coefficient * Nat.pow 10 (limit + 1) < coefficientBound then limit + 1
    else room coefficient limit

/-- A quotient that has just grown too large, with its last place rounded away. -/
def shorten (quotient : Nat) (isExact : Bool) : Nat :=
  let last := quotient % 10
  if 5 < last || (last = 5 && (!isExact || quotient / 10 % 2 = 1)) then quotient / 10 + 1
  else quotient / 10

/-- Long division that extends the quotient by up to nine places at a time while a remainder is
left, and rounds when there is no more room.  It ends with the coefficient and its places. -/
def divideOn? (divisor : Nat) : Nat → Nat → Nat → Int → Option (Nat × Int)
  | 0, _, _, _ => none
  | fuel + 1, quotient, remainder, places =>
    if remainder = 0 && 0 ≤ places then some (quotient, places)
    else
      let step :=
        if remainder = 0 then min 9 (-places).toNat
        else room quotient (min 9 (maxPlaces - places).toNat)
      if step = 0 then
        if places < 0 then none
        else
          let twice := 2 * remainder
          let rounded :=
            if divisor < twice || (twice = divisor && quotient % 2 = 1) then quotient + 1
            else quotient
          if rounded < coefficientBound then some (rounded, places)
          else if places = 0 then none
          else some (shorten rounded false, places - 1)
      else if places + step < 0 && remainder ≠ 0 && step < 9 then none
      else if coefficientBound ≤ quotient * Nat.pow 10 step then none
      else
        let next := quotient * Nat.pow 10 step + remainder * Nat.pow 10 step / divisor
        let rest := remainder * Nat.pow 10 step % divisor
        let places := places + step
        if next < coefficientBound then divideOn? divisor fuel next rest places
        else if places ≤ 0 then none
        else some (shorten next (rest = 0), places - 1)

/-- Drops a group of trailing zeros, if there are as many and the coefficient is divisible by the
power of two that serves as a quick test. -/
def dropGroup (test zeros : Nat) : Nat × Nat → Nat × Nat
  | (coefficient, places) =>
    if coefficient % test = 0 && zeros ≤ places && coefficient % Nat.pow 10 zeros = 0 then
      (coefficient / Nat.pow 10 zeros, places - zeros)
    else (coefficient, places)

/-- Drops trailing zeros in groups of eight, four, two and one. -/
def dropZeros (number : Nat × Nat) : Nat × Nat :=
  let dropEight := dropGroup (Nat.pow 2 32) 8
  let eights := dropEight (dropEight (dropEight number))
  dropGroup 2 1 (dropGroup 4 2 (dropGroup 16 4 eights))

/-- The quotient of a number by a non-zero one.  A quotient of the coefficients that is exact keeps
its places; otherwise trailing zeros are dropped. -/
def div? (left right : Decimal) : Option Decimal :=
  if left.isZero then some zero
  else
    let negative := left.negative != right.negative
    let divisor := right.coefficient
    let remainder := left.coefficient % divisor
    (divideOn? divisor 64 (left.coefficient / divisor) remainder
      ((left.places : Int) - right.places)).map fun (quotient, places) =>
        let number := (quotient, places.toNat)
        let (quotient, places) := if remainder = 0 then number else dropZeros number
        ofParts negative quotient places

/-- The remainder of a division by a non-zero number with a quotient truncated to an integer. -/
def rem? (left right : Decimal) : Option Decimal :=
  if left.isZero then some zero
  else
    match compare left.abs right.abs with
    | .lt => some left
    | .eq => some zero
    | .gt =>
      let places := max left.places right.places
      let rest := left.coefficient * Nat.pow 10 (places - left.places)
        % (right.coefficient * Nat.pow 10 (places - right.places))
      some (ofParts left.negative rest places)

/-- The greatest integer that is not above the number. -/
def floor (d : Decimal) : Decimal :=
  if d.negative && d.hasFraction then
    ofParts true (d.coefficient / Nat.pow 10 d.places + 1) 0
  else d.trunc

/-- The least integer that is not below the number. -/
def ceiling (d : Decimal) : Decimal :=
  if !d.negative && d.hasFraction then
    ofParts false (d.coefficient / Nat.pow 10 d.places + 1) 0
  else d.trunc

/-- The number rounded to some places, a tie going to the even digit; the sign stays even where
nothing else does. -/
def roundTo (d : Decimal) (places : Nat) : Decimal :=
  if d.isZero then ⟨d.negative, 0, places % 256⟩
  else if d.places ≤ places then d
  else ⟨d.negative, divRoundEven d.coefficient (Nat.pow 10 (d.places - places)), places⟩

end QueryTree.Decimal
