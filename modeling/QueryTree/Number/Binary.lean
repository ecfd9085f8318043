/-!
# Binary numbers

Finite binary fractions `m · 2 ^ q`, their encoding in the two interchange formats, and rounding of
a ratio of integers to the nearest encodable number, a tie going to the even neighbour.
-/

namespace QueryTree

/-- A quotient rounded to the nearest integer, a tie going to the even one. -/
def divRoundEven (num den : Nat) : Nat :=
  let quotient := num / den
  let twice := 2 * (num % den)
  if twice < den then quotient
  else if den < twice then quotient + 1
  else quotient + quotient % 2

/-- An interchange format: the number of significant bits, the exponent of its least positive
number, and the number of exponent bits. -/
structure BinaryFormat where
  precision : Nat
  leastExponent : Int
  exponentBits : Nat
deriving DecidableEq

namespace BinaryFormat

/-- The format of 64 bits. -/
def double : BinaryFormat := ⟨53, -1074, 11⟩

/-- The format of 32 bits. -/
def single : BinaryFormat := ⟨24, -149, 8⟩

/-- The encoding of positive infinity. -/
def infinityBits (format : BinaryFormat) : Nat :=
  (Nat.pow 2 format.exponentBits - 1) * Nat.pow 2 (format.precision - 1)

/-- The encoding of the sign. -/
def signBit (format : BinaryFormat) : Nat :=
  Nat.pow 2 (format.exponentBits + format.precision - 1)

/-- The encoding of the non-negative number nearest to `num / den`, for a positive `den`. -/
def roundRatio (format : BinaryFormat) (num den : Nat) : Nat :=
  if num = 0 then 0
  else
    let guess : Int := (num.log2 : Int) - (den.log2 : Int)
    let exponent := max (guess - format.precision) format.leastExponent
    let significand (q : Int) : Nat :=
      if 0 ≤ q then divRoundEven num (den * Nat.pow 2 q.toNat)
      else divRoundEven (num * Nat.pow 2 (-q).toNat) den
    -- the guess may be one or two places too fine
    let exponent :=
      if significand exponent < Nat.pow 2 format.precision then exponent
      else if significand (exponent + 1) < Nat.pow 2 format.precision then exponent + 1
      else exponent + 2
    let code :=
      (exponent - format.leastExponent).toNat * Nat.pow 2 (format.precision - 1) +
        significand exponent
    min code format.infinityBits

/-- The number `significand · 2 ^ exponent` that an encoding without sign stands for, if it is
finite. -/
def decode? (format : BinaryFormat) (code : Nat) : Option (Nat × Int) :=
  if format.infinityBits ≤ code then none
  else
    let fraction := code % Nat.pow 2 (format.precision - 1)
    let biased := code / Nat.pow 2 (format.precision - 1)
    if biased = 0 then some (fraction, format.leastExponent)
    else
      some (Nat.pow 2 (format.precision - 1) + fraction, format.leastExponent + (biased - 1 : Nat))

end BinaryFormat

/-- A non-negative encoding, negated on demand, as a number of 64 bits. -/
def doubleOfCode (negative : Bool) (code : Nat) : Float :=
  Float.ofBits (UInt64.ofNat (if negative then code + BinaryFormat.double.signBit else code))

/-- A non-negative encoding, negated on demand, as a number of 32 bits. -/
def singleOfCode (negative : Bool) (code : Nat) : Float32 :=
  Float32.ofBits (UInt32.ofNat (if negative then code + BinaryFormat.single.signBit else code))

/-- The number of 64 bits nearest to an integer. -/
def doubleOfInt (n : Int) : Float :=
  doubleOfCode (n < 0) (BinaryFormat.double.roundRatio n.natAbs 1)

/-- The number of 32 bits nearest to an integer. -/
def singleOfInt (n : Int) : Float32 :=
  singleOfCode (n < 0) (BinaryFormat.single.roundRatio n.natAbs 1)

/-- The sign and the encoding of the magnitude of a number of 64 bits. -/
def signedCode (x : Float) : Bool × Nat :=
  let code := x.toBits.toNat
  (BinaryFormat.double.signBit ≤ code, code % BinaryFormat.double.signBit)

/-- The sign and the encoding of the magnitude of a number of 32 bits. -/
def signedCode32 (x : Float32) : Bool × Nat :=
  let code := x.toBits.toNat
  (BinaryFormat.single.signBit ≤ code, code % BinaryFormat.single.signBit)

/-- The magnitude `m · 2 ^ q` rounded toward zero. -/
def truncBinary (m : Nat) (q : Int) : Nat :=
  if 0 ≤ q then m * Nat.pow 2 q.toNat else m / Nat.pow 2 (-q).toNat

/-- The integer that a real number is converted to: its integral part, the nearest of the bounds
of 128-bit integers where it lies outside them, and zero for what is no number. -/
def integerOfDouble (x : Float) : Int :=
  let (negative, code) := signedCode x
  match BinaryFormat.double.decode? code with
  | some (m, q) =>
    let magnitude : Int := truncBinary m q
    if negative then max (-magnitude) (-(Nat.pow 2 127)) else min magnitude (Nat.pow 2 127 - 1)
  | none =>
    if BinaryFormat.double.infinityBits < code then 0
    else if negative then -(Nat.pow 2 127) else Nat.pow 2 127 - 1

/-- A real number rounded to an integer, a tie going to the even one. -/
def roundEvenDouble (x : Float) : Float :=
  let (negative, code) := signedCode x
  match BinaryFormat.double.decode? code with
  | some (m, q) =>
    if 0 ≤ q then x
    else
      doubleOfCode negative
        (BinaryFormat.double.roundRatio (divRoundEven m (Nat.pow 2 (-q).toNat)) 1)
  | none => x

/-- A real number rounded toward zero. -/
def truncDouble (x : Float) : Float := if x < 0.0 then x.ceil else x.floor

/-- The remainder of a division of two real numbers with a quotient truncated to an integer; it is
exact and has the sign of the dividend. -/
def doubleRemainder (x y : Float) : Float :=
  let (negative, left) := signedCode x
  let (_, right) := signedCode y
  match BinaryFormat.double.decode? left, BinaryFormat.double.decode? right with
  | some (m, q), some (n, r) =>
    if n = 0 then 0.0 / 0.0
    else
      let low := min q r
      let a := m * Nat.pow 2 (q - low).toNat
      let b := n * Nat.pow 2 (r - low).toNat
      let rest := a % b
      let code :=
        if 0 ≤ low then BinaryFormat.double.roundRatio (rest * Nat.pow 2 low.toNat) 1
        else BinaryFormat.double.roundRatio rest (Nat.pow 2 (-low).toNat)
      doubleOfCode negative code
  | some _, none => if BinaryFormat.double.infinityBits < right then y else x
  | none, _ => 0.0 / 0.0

end QueryTree
