import QueryTree.Number.Binary

/-!
# Shortest decimal text of a binary number

The fewest decimal digits that read back as the same number, and the nearest to it among those.
The search tries one digit, two digits and so on, and tests the two neighbours of the exact value
on each decimal grid.  The layout of the digits is a separate decision.
-/

namespace QueryTree

/-- Where a number that lies halfway between two shortest candidates goes. -/
inductive TieRule where
  | up | even
deriving DecidableEq

namespace Shortest

/-- The numbers that round to one encoding lie between `low / den` and `high / den` around
`mid / den`; the ends belong to them if `closed`. -/
structure Window where
  low : Nat
  mid : Nat
  high : Nat
  den : Nat
  closed : Bool

/-- The window of `m · 2 ^ q` for a positive `m`. -/
def window (format : BinaryFormat) (m : Nat) (q : Int) : Window :=
  -- below a power of two the next number is only half as far
  let low := if m = Nat.pow 2 (format.precision - 1) && format.leastExponent < q then 4 * m - 1
    else 4 * m - 2
  let factor := Nat.pow 2 q.toNat
  ⟨low * factor, 4 * m * factor, (4 * m + 2) * factor, 4 * Nat.pow 2 (-q).toNat, m % 2 == 0⟩

/-- Whether `digits · 10 ^ exponent` lies in a window. -/
def Window.admits (w : Window) (digits : Nat) (exponent : Int) : Bool :=
  let value := digits * Nat.pow 10 exponent.toNat * w.den
  let scale := Nat.pow 10 (-exponent).toNat
  if w.closed then w.low * scale ≤ value && value ≤ w.high * scale
  else w.low * scale < value && value < w.high * scale

/-- The nearest candidate in a window on the grid of multiples of `10 ^ exponent`. -/
def Window.candidate? (w : Window) (tie : TieRule) (exponent : Int) : Option Nat :=
  let num := w.mid * Nat.pow 10 (-exponent).toNat
  let den := w.den * Nat.pow 10 exponent.toNat
  let below := num / den
  let twice := 2 * (num % den)
  match w.admits below exponent, w.admits (below + 1) exponent with
  | false, false => none
  | true, false => some below
  | false, true => some (below + 1)
  | true, true =>
    if twice < den then some below
    else if den < twice then some (below + 1)
    else match tie with
      | .up => some (below + 1)
      | .even => some (below + below % 2)

/-- The exponent `e` with `10 ^ (e - 1) ≤ mid / den < 10 ^ e`, found from an estimate that is at
most `fuel` too small. -/
def Window.magnitude (w : Window) : Nat → Int → Int
  | 0, e => e
  | fuel + 1, e =>
    if w.mid * Nat.pow 10 (-e).toNat < w.den * Nat.pow 10 e.toNat then e
    else w.magnitude fuel (e + 1)

/-- The first grid with a candidate, from coarse to fine. -/
def Window.search (w : Window) (tie : TieRule) : Nat → Int → Nat × Int
  | 0, exponent =>
    (w.mid * Nat.pow 10 (-exponent).toNat / (w.den * Nat.pow 10 exponent.toNat), exponent)
  | fuel + 1, exponent =>
    match w.candidate? tie exponent with
    | some digits => (digits, exponent)
    | none => w.search tie fuel (exponent - 1)

/-- A decimal number without trailing zeros in its digits. -/
def strip : Nat → Nat → Int → Nat × Int
  | 0, digits, exponent => (digits, exponent)
  | fuel + 1, digits, exponent =>
    if digits % 10 = 0 && digits ≠ 0 then strip fuel (digits / 10) (exponent + 1)
    else (digits, exponent)

/-- The shortest `digits · 10 ^ exponent` for a positive `m · 2 ^ q`. -/
def decimal (format : BinaryFormat) (tie : TieRule) (m : Nat) (q : Int) : Nat × Int :=
  let w := window format m q
  -- 1233 / 4096 is slightly less than the logarithm of two
  let estimate := ((m.log2 : Int) + q) * 1233 / 4096 - 1
  let (digits, exponent) := w.search tie 20 (w.magnitude 6 estimate - 1)
  strip 20 digits exponent

end Shortest

/-- How the digits of a real number are laid out: the least and greatest exponent of the leading
digit that is written positionally, if there are such bounds, whether an integer keeps one decimal,
and how a tie goes. -/
structure RealLayout where
  positional : Option (Int × Int)
  keepsDecimal : Bool
  tie : TieRule

namespace RealLayout

/-- Values show all their places, never an exponent. -/
def plain : RealLayout := ⟨none, false, .up⟩

/-- Documents show an exponent below `1e-5` and from `1e16` on. -/
def document : RealLayout := ⟨some (-5, 15), true, .even⟩

/-- Digits with a decimal point after the first `point` of them, filled up by zeros. -/
def positionalText (keepsDecimal : Bool) (digits : List Char) (point : Int) : String :=
  let zeros (n : Int) : List Char := List.replicate n.toNat '0'
  if point ≤ 0 then String.ofList ('0' :: '.' :: (zeros (-point) ++ digits))
  else if (digits.length : Int) ≤ point then
    let whole := digits ++ zeros (point - digits.length)
    String.ofList (if keepsDecimal then whole ++ ['.', '0'] else whole)
  else
    String.ofList (digits.take point.toNat ++ '.' :: digits.drop point.toNat)

/-- Digits with an exponent. -/
def scientificText (digits : List Char) (exponent : Int) : String :=
  let mantissa :=
    match digits with
    | first :: second :: rest => first :: '.' :: second :: rest
    | short => short
  String.ofList mantissa ++ "e" ++ (if exponent < 0 then "-" else "+") ++ toString exponent.natAbs

/-- The text of a positive decimal number. -/
def text (layout : RealLayout) (digits : Nat) (exponent : Int) : String :=
  let figures := Nat.toDigits 10 digits
  let point := exponent + figures.length
  match layout.positional with
  | none => positionalText layout.keepsDecimal figures point
  | some (least, greatest) =>
    if least ≤ point - 1 && point - 1 ≤ greatest then
      positionalText layout.keepsDecimal figures point
    else scientificText figures (point - 1)

/-- The text of an encoded number. -/
def codeText (layout : RealLayout) (format : BinaryFormat) (negative : Bool) (code : Nat) :
    String :=
  let sign := if negative then "-" else ""
  match format.decode? code with
  | none => if format.infinityBits < code then "NaN" else sign ++ "inf"
  | some (0, _) => sign ++ (if layout.keepsDecimal then "0.0" else "0")
  | some (m, q) =>
    let (digits, exponent) := Shortest.decimal format layout.tie m q
    sign ++ layout.text digits exponent

/-- The text of a number of 64 bits. -/
def doubleText (layout : RealLayout) (x : Float) : String :=
  let (negative, code) := signedCode x
  layout.codeText .double negative code

/-- The text of a number of 32 bits. -/
def singleText (layout : RealLayout) (x : Float32) : String :=
  let (negative, code) := signedCode32 x
  layout.codeText .single negative code

end RealLayout

end QueryTree
