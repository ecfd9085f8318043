import QueryTree.Number.Decimal.Basic

/-!
# Decimal and binary numbers

Conversion between decimal numbers and the binary formats.  Both directions are approximate and
follow fixed recipes: a decimal number is the sum of its integral part and its fraction, rounded to
its own places; a binary number has its power of two traded for a power of ten inside a coefficient
of 96 bits.

What is documented of these conversions is that a binary number is rounded to the digits that its
format guarantees, so that 0.1 becomes 0.1, and that a number that is not finite or too large for 96
bits has no decimal form.
-/

namespace QueryTree

/-- A power by repeated squaring, each product rounded. -/
def powerBySquaring (base : Float) (exponent : Nat) : Float :=
  go 32 base exponent 1.0
where
  /-- Multiplies `result` by `base` raised to the exponent. -/
  go : Nat → Float → Nat → Float → Float
    | 0, _, _, result => result
    | fuel + 1, base, exponent, result =>
      let result := if exponent % 2 = 1 then result * base else result
      if exponent / 2 = 0 then result else go fuel (base * base) (exponent / 2) result

/-- A power of ten with an integral exponent. -/
def powerOfTen (exponent : Int) : Float :=
  let power := powerBySquaring 10.0 exponent.natAbs
  if exponent < 0 then 1.0 / power else power

namespace Decimal

/-- The number as a binary number of 64 bits. -/
def toDouble (d : Decimal) : Float :=
  if d.places = 0 then doubleOfInt d.signed
  else
    let unit := Nat.pow 10 d.places
    let whole := doubleOfInt (d.coefficient / unit : Nat)
    let fraction := doubleOfInt (d.coefficient % unit : Nat) / doubleOfInt unit
    let magnitude :=
      if fraction == 0.0 then whole
      else
        let scale := powerOfTen d.places
        ((whole + fraction) * scale).round / scale
    if d.negative then -magnitude else magnitude

/-- Trades negative powers of two for powers of ten: halves an even coefficient, else multiplies it
by five, else halves it with a loss. -/
def tradeHalves : Nat → Nat → Int → Nat × Int
  | 0, coefficient, exponent => (coefficient, exponent)
  | count + 1, coefficient, exponent =>
    if coefficient % 2 = 0 then tradeHalves count (coefficient / 2) (exponent + 1)
    else if coefficient * 5 < coefficientBound then tradeHalves count (coefficient * 5) exponent
    else tradeHalves count (coefficient / 2) (exponent + 1)

/-- Trades positive powers of two for powers of ten: doubles the coefficient, else divides it by
five with a loss. -/
def tradeDoubles : Nat → Nat → Int → Nat × Int
  | 0, coefficient, exponent => (coefficient, exponent)
  | count + 1, coefficient, exponent =>
    if coefficient < coefficientBound / 2 then tradeDoubles count (coefficient * 2) (exponent - 1)
    else tradeDoubles count (coefficient / 5) exponent

/-- Removes a positive power of ten by multiplying, if the coefficient stays in range. -/
def absorbTens? : Nat → Nat → Option Nat
  | 0, coefficient => some coefficient
  | count + 1, coefficient =>
    if coefficient * 10 < coefficientBound then absorbTens? count (coefficient * 10) else none

/-- A division by ten that rounds a half up. -/
def tenth (coefficient : Nat) : Nat :=
  coefficient / 10 + if 5 ≤ coefficient % 10 then 1 else 0

/-- Gives up places in excess of the greatest number; a coefficient that vanishes needs none. -/
def dropExcess : Nat → Nat → Nat → Nat × Nat
  | 0, coefficient, places => (coefficient, places)
  | count + 1, coefficient, places =>
    if coefficient / 10 = 0 then (0, 0) else dropExcess count (tenth coefficient) (places - 1)

/-- Gives up places while the coefficient has more bits than the binary format guarantees. -/
def dropNoise (bound : Nat) : Nat → Nat → Nat × Nat
  | coefficient, 0 => (coefficient, 0)
  | coefficient, places + 1 =>
    if bound ≤ coefficient then dropNoise bound (tenth coefficient) places
    else (coefficient, places + 1)

/-- Gives up trailing zeros. -/
def dropTens : Nat → Nat → Nat × Nat
  | coefficient, 0 => (coefficient, 0)
  | coefficient, places + 1 =>
    if coefficient % 10 = 0 then dropTens (coefficient / 10) places else (coefficient, places + 1)

/-- The decimal number that stands for `m · 2 ^ q`, of which `bits` bits are significant. -/
def ofBinary? (negative : Bool) (m : Nat) (q : Int) (bits : Nat) : Option Decimal :=
  let (coefficient, exponent) :=
    if q < 0 then tradeHalves (-q).toNat m q else tradeDoubles q.toNat m q
  (absorbTens? exponent.toNat coefficient).map fun coefficient =>
    let places := (-exponent).toNat
    let (coefficient, places) := dropExcess (places - maxPlaces) coefficient places
    let (coefficient, places) := dropNoise (Nat.pow 2 bits) coefficient places
    let (coefficient, places) := dropTens coefficient places
    ⟨negative, coefficient, places⟩

/-- The decimal number that stands for a binary number of 64 bits. -/
def ofDouble? (x : Float) : Option Decimal :=
  let (negative, code) := signedCode x
  match BinaryFormat.double.decode? code with
  | none => none
  | some (0, _) => some ⟨negative, 0, 0⟩
  | some (m, q) => ofBinary? negative m q 52

/-- The decimal number that stands for a binary number of 32 bits. -/
def ofSingle? (x : Float32) : Option Decimal :=
  let (negative, code) := signedCode32 x
  match BinaryFormat.single.decode? code with
  | none => none
  | some (0, _) => some ⟨negative, 0, 0⟩
  | some (m, q) => ofBinary? negative m q 24

end Decimal

end QueryTree
