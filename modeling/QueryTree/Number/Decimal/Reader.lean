import QueryTree.Number.Decimal.Arithmetic
import QueryTree.Number.Numeral

/-!
# Reading decimal numbers

Decimal numbers from text.  An underscore may separate digits once a digit has been read.  Digits
after the last place that fits are not kept: the first of them rounds, a half away from zero, and
the rest of the text is not looked at.

The two documented forms of a decimal number are read: positional notation with an optional sign,
and scientific notation with an integral exponent, which is tried where the first one fails.
-/

namespace QueryTree.Decimal

/-- What has been read: the coefficient, the places, whether the point has been passed and whether
there was a digit. -/
structure Reading where
  coefficient : Nat
  places : Nat
  afterPoint : Bool
  hasDigit : Bool

/-- A reading rounded by the first character that does not fit any more. -/
def Reading.round? (reading : Reading) (c : Char) : Option Reading :=
  let digit? :=
    if c.isDigit then some (c.toNat - 48)
    else if c = '_' || (c = '.' && reading.afterPoint) then some 0
    else none
  digit?.bind fun digit =>
    if digit < 5 then some reading
    else if reading.coefficient + 1 < coefficientBound then
      some { reading with coefficient := reading.coefficient + 1 }
    else if reading.places = 0 then none
    else
      some { reading with
        coefficient := (reading.coefficient + 5) / 10, places := reading.places - 1 }

/-- Reads digits; `crowded` texts are long enough for the coefficient to get full. -/
def Reading.run (crowded : Bool) (reading : Reading) : List Char → Option Reading
  | [] => some reading
  | c :: rest =>
    if crowded && reading.afterPoint && maxPlaces ≤ reading.places then reading.round? c
    else if c.isDigit then
      let coefficient := reading.coefficient * 10 + (c.toNat - 48)
      if coefficientBound ≤ coefficient then
        if reading.afterPoint then reading.round? c else none
      else
        let places := if reading.afterPoint then reading.places + 1 else reading.places
        Reading.run crowded
          { reading with coefficient := coefficient, places := places, hasDigit := true } rest
    else if c = '.' && !reading.afterPoint then
      Reading.run crowded { reading with afterPoint := true } rest
    else if c = '_' && reading.hasDigit then Reading.run crowded reading rest
    else none

/-- A decimal number in positional notation. -/
def ofPositional? (text : String) : Option Decimal :=
  let cs := text.toList
  let (negative, body) :=
    match cs with
    | '-' :: rest => (true, rest)
    | '+' :: rest => (false, rest)
    | rest => (false, rest)
  let crowded := 18 ≤ text.utf8ByteSize
  (Reading.run crowded ⟨0, 0, false, false⟩ body).bind fun reading =>
    if reading.hasDigit then some (ofParts negative reading.coefficient reading.places) else none

/-- The number with its decimal point moved to the right, if it stays in range. -/
def scaleUp? (d : Decimal) (exponent : Nat) : Option Decimal :=
  if exponent ≤ d.places then some { d with places := d.places - exponent }
  else
    let scaled := d.coefficient * Nat.pow 10 (exponent - d.places)
    if maxPlaces < exponent then none
    else if scaled < coefficientBound then some { d with coefficient := scaled, places := 0 }
    else none

/-- The number with its decimal point moved to the left, if it keeps few enough places. -/
def scaleDown? (d : Decimal) (exponent : Nat) : Option Decimal :=
  if exponent ≤ maxPlaces && d.places + exponent ≤ maxPlaces then
    some { d with places := d.places + exponent }
  else none

/-- A decimal number in scientific notation. -/
def ofScientific? (text : String) : Option Decimal :=
  let cs := text.toList
  let isMark (c : Char) : Bool := c = 'e' || c = 'E'
  match cs.dropWhile (!isMark ·) with
  | [] => none
  | _ :: exponent =>
    (ofPositional? (String.ofList (cs.takeWhile (!isMark ·)))).bind fun base =>
      match exponent with
      | '-' :: rest =>
        (Numeral.unsigned? 10 rest).bind fun n => scaleDown? base n
      | rest => (Numeral.unsigned? 10 rest).bind fun n => scaleUp? base n

/-- A decimal number in positional or scientific notation. -/
def ofText? (text : String) : Option Decimal := ofPositional? text <|> ofScientific? text

end QueryTree.Decimal
