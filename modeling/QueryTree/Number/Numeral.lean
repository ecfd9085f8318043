import QueryTree.Number.Binary

/-!
# Reading numerals

Integers and real numbers from text: a sign, digits and, for real numbers, a decimal point, an
exponent and the names of the values that are not finite.
-/

namespace QueryTree.Numeral

/-- The value of a digit in a base up to sixteen. -/
def digitValue? (base : Nat) (c : Char) : Option Nat :=
  let value :=
    if '0' ≤ c && c ≤ '9' then some (c.toNat - 48)
    else if 'a' ≤ c && c ≤ 'f' then some (c.toNat - 87)
    else if 'A' ≤ c && c ≤ 'F' then some (c.toNat - 55)
    else none
  value.filter (· < base)

/-- The number written by digits that follow a number read before. -/
def digitsFrom? (base : Nat) : Nat → List Char → Option Nat
  | value, [] => some value
  | value, c :: rest =>
    match digitValue? base c with
    | some digit => digitsFrom? base (value * base + digit) rest
    | none => none

/-- A non-empty sequence of digits. -/
def digits? (base : Nat) (cs : List Char) : Option Nat :=
  if cs.isEmpty then none else digitsFrom? base 0 cs

/-- Digits with an optional plus sign. -/
def unsigned? (base : Nat) : List Char → Option Nat
  | '+' :: rest => digits? base rest
  | cs => digits? base cs

/-- Digits with an optional sign. -/
def signed? : List Char → Option Int
  | '-' :: rest => (digits? 10 rest).map fun n => -(n : Int)
  | cs => (unsigned? 10 cs).map fun n => (n : Int)

/-- A real number in text: a decimal fraction, or one of the values that are not finite. -/
inductive Real where
  | finite (digits : Nat) (exponent : Int)
  | infinity
  | nan
deriving DecidableEq

/-- The exponent that may end a real number. -/
def exponent? : List Char → Option Int
  | [] => some 0
  | c :: rest => if c = 'e' || c = 'E' then signed? rest else none

/-- The decimal fraction with the given digits before the point, read from what follows them. -/
def fraction? (whole rest : List Char) : Option Real :=
  let (decimals, rest) :=
    match rest with
    | '.' :: rest => (rest.takeWhile Char.isDigit, rest.dropWhile Char.isDigit)
    | rest => ([], rest)
  match digits? 10 (whole ++ decimals), exponent? rest with
  | some digits, some exponent => some (.finite digits (exponent - decimals.length))
  | _, _ => none

/-- A real number without its sign. -/
def magnitude? (cs : List Char) : Option Real :=
  let word := String.ofList (cs.map Char.toLower)
  if word = "inf" || word = "infinity" then some .infinity
  else if word = "nan" then some .nan
  else fraction? (cs.takeWhile Char.isDigit) (cs.dropWhile Char.isDigit)

/-- A real number with an optional sign. -/
def real? : List Char → Option (Bool × Real)
  | '-' :: rest => (magnitude? rest).map (true, ·)
  | '+' :: rest => (magnitude? rest).map (false, ·)
  | cs => (magnitude? cs).map (false, ·)

/-- The encoding of the number nearest to `digits · 10 ^ exponent`.  Beyond `10 ^ 400` every format
is exhausted, and below `10 ^ -400` every number rounds to zero. -/
def roundDecimal (format : BinaryFormat) (digits : Nat) (exponent : Int) : Nat :=
  if digits = 0 then 0
  else
    let size : Int := (Nat.toDigits 10 digits).length + exponent
    if 400 < size then format.infinityBits
    else if size < -400 then 0
    else format.roundRatio (digits * Nat.pow 10 exponent.toNat) (Nat.pow 10 (-exponent).toNat)

/-- The encoding of a real number without its sign. -/
def Real.code (format : BinaryFormat) : Real → Nat
  | .finite digits exponent => roundDecimal format digits exponent
  | .infinity => format.infinityBits
  | .nan => format.infinityBits + Nat.pow 2 (format.precision - 2)

/-- The number of 64 bits nearest to the written one. -/
def double? (text : String) : Option Float :=
  (real? text.toList).map fun (negative, real) => doubleOfCode negative (real.code .double)

/-- The number of 32 bits nearest to the written one. -/
def single? (text : String) : Option Float32 :=
  (real? text.toList).map fun (negative, real) => singleOfCode negative (real.code .single)

/-- A signed integer. -/
def int? (text : String) : Option Int := signed? text.toList

end QueryTree.Numeral
