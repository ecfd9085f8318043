import QueryTree.Json.Basic
import QueryTree.Number.Numeral

/-!
# Reading documents

Documents from text.  A number takes at most 64 bits of digits; a real number is the digits times or
divided by a power of ten, rounded at each step.

The grammar is the one of JSON, and its documented limits hold: a text is one document with nothing
but spaces around it, at most 127 arrays and objects are nested, the halves of a pair of escaped
code units have to stand together, and a real number too large for 64 bits is refused.
-/

namespace QueryTree.Json

/-- The greatest number of digits' worth that is kept. -/
def maxSignificand : Nat := Nat.pow 2 64 - 1

/-- Reads digits onto a significand as long as it fits; the number of digits read, and what follows
them. -/
def readDigits (significand count : Nat) : List Char → Nat × Nat × List Char
  | c :: rest =>
    let next := significand * 10 + (c.toNat - 48)
    if c.isDigit && next ≤ maxSignificand then readDigits next (count + 1) rest
    else (significand, count, c :: rest)
  | [] => (significand, count, [])

/-- The greatest power of ten that is a finite number. -/
def maxPower : Int := 308

/-- A power of ten up to the greatest one, correctly rounded. -/
def tenTo (exponent : Nat) : Float :=
  doubleOfCode false (Numeral.roundDecimal .double 1 exponent)

/-- A number scaled by a power of ten.  Divisions go on until the power fits or nothing is left. -/
def scale? : Nat → Float → Int → Option Float
  | fuel, x, exponent =>
    if 0 ≤ exponent && exponent ≤ maxPower then
      let scaled := x * tenTo exponent.toNat
      if scaled.isFinite then some scaled else none
    else if -maxPower ≤ exponent && exponent < 0 then some (x / tenTo (-exponent).toNat)
    else if x == 0.0 then some x
    else if 0 ≤ exponent then none
    else
      match fuel with
      | 0 => some x
      | fuel + 1 => scale? fuel (x / tenTo maxPower.toNat) (exponent + maxPower)

/-- A real number from its digits and the power of ten that they are multiplied by. -/
def ofDigits? (negative : Bool) (significand : Nat) (exponent : Int) : Option Json :=
  -- three divisions bring every significand down to zero
  (scale? 3 (doubleOfInt significand) exponent).map fun x => real (if negative then -x else x)

/-- An exponent after its mark. -/
def exponent? : List Char → Option (Int × List Char)
  | '+' :: rest => (digits? rest).map fun (n, rest) => ((n : Int), rest)
  | '-' :: rest => (digits? rest).map fun (n, rest) => (-(n : Int), rest)
  | cs => (digits? cs).map fun (n, rest) => ((n : Int), rest)
where
  /-- At least one digit. -/
  digits? (cs : List Char) : Option (Nat × List Char) :=
    (Numeral.digits? 10 (cs.takeWhile Char.isDigit)).map fun n => (n, cs.dropWhile Char.isDigit)

/-- A real number whose digits have been read, with its exponent if one follows. -/
def finishReal? (negative : Bool) (significand : Nat) (exponent : Int) (cs : List Char) :
    Option (Json × List Char) :=
  match cs with
  | c :: rest =>
    if c = 'e' || c = 'E' then do
      let (power, rest) ← exponent? rest
      return (← ofDigits? negative significand (exponent + power), rest)
    else (ofDigits? negative significand exponent).map fun number => (number, c :: rest)
  | [] => (ofDigits? negative significand exponent).map fun number => (number, [])

/-- The decimals after a point.  Digits that do not fit any more are passed over. -/
def decimals? (negative : Bool) (significand : Nat) (exponent : Int) (cs : List Char) :
    Option (Json × List Char) :=
  let (significand, count, rest) := readDigits significand 0 cs
  if cs.head?.any Char.isDigit then
    finishReal? negative significand (exponent - count) (rest.dropWhile Char.isDigit)
  else none

/-- A whole number, if it fits 64 bits.  Minus zero is a real number. -/
def whole? (negative : Bool) (significand : Nat) : Option Json :=
  if !negative then some (int significand)
  else if 0 < significand && significand ≤ Nat.pow 2 63 then some (int (-(significand : Int)))
  else ofDigits? true significand 0

/-- A number whose whole part has been read: digits that did not fit, and what follows. -/
def afterWhole? (negative : Bool) (significand : Nat) (dropped : Nat) (cs : List Char) :
    Option (Json × List Char) :=
  match cs with
  | '.' :: rest => decimals? negative significand dropped rest
  | c :: rest =>
    if c = 'e' || c = 'E' || 0 < dropped then finishReal? negative significand dropped (c :: rest)
    else (whole? negative significand).map fun number => (number, c :: rest)
  | [] =>
    if 0 < dropped then finishReal? negative significand dropped []
    else (whole? negative significand).map fun number => (number, [])

/-- A number without its sign.  A leading zero is the only digit before the point. -/
def magnitude? (negative : Bool) : List Char → Option (Json × List Char)
  | '0' :: rest =>
    if rest.head?.any Char.isDigit then none else afterWhole? negative 0 0 rest
  | c :: rest =>
    if c.isDigit then
      let (significand, _, rest) := readDigits 0 0 (c :: rest)
      let dropped := rest.takeWhile Char.isDigit
      afterWhole? negative significand dropped.length (rest.dropWhile Char.isDigit)
    else none
  | [] => none

/-- The number that four hexadecimal digits stand for. -/
def unit? (a b c d : Char) : Option Nat := Numeral.digits? 16 [a, b, c, d]

/-- The character with a code, which is no half of a pair. -/
def charOfCode? (code : Nat) : Option Char :=
  if valid : code.isValidChar then some (Char.ofNatAux code valid) else none

/-- The character that two halves of a pair stand for. -/
def charOfPair? (high low : Nat) : Option Char :=
  if 0xD800 ≤ high && high < 0xDC00 && 0xDC00 ≤ low && low < 0xE000 then
    charOfCode? (0x10000 + (high - 0xD800) * 1024 + (low - 0xDC00))
  else none

/-- The character that a letter after a backslash stands for. -/
def escaped? : Char → Option Char
  | '"' => some '"'
  | '\\' => some '\\'
  | '/' => some '/'
  | 'b' => some '\x08'
  | 'f' => some '\x0c'
  | 'n' => some '\n'
  | 'r' => some '\r'
  | 't' => some '\t'
  | _ => none

/-- A character put before the characters of a string. -/
def consChar (c : Char) (read : List Char × List Char) : List Char × List Char :=
  (c :: read.1, read.2)

/-- The characters of a string up to its closing quote, and what follows it. -/
def stringBody? : List Char → Option (List Char × List Char)
  | [] => none
  | '"' :: rest => some ([], rest)
  | '\\' :: 'u' :: a :: b :: c :: d :: '\\' :: 'u' :: e :: f :: g :: h :: rest => do
    let high ← unit? a b c d
    match charOfCode? high with
    | some c => return consChar c (← stringBody? ('\\' :: 'u' :: e :: f :: g :: h :: rest))
    | none => return consChar (← charOfPair? high (← unit? e f g h)) (← stringBody? rest)
  | '\\' :: 'u' :: a :: b :: c :: d :: rest => do
    return consChar (← charOfCode? (← unit? a b c d)) (← stringBody? rest)
  | '\\' :: letter :: rest => do return consChar (← escaped? letter) (← stringBody? rest)
  | c :: rest => if c.toNat < 32 then none else (stringBody? rest).map (consChar c)
termination_by structural cs => cs

/-- Whether a character separates the words of a document. -/
def isSpace (c : Char) : Bool := c = ' ' || c = '\n' || c = '\t' || c = '\r'

/-- What follows spaces. -/
def skipSpaces (cs : List Char) : List Char := cs.dropWhile isSpace

/-- A word at the front of a text. -/
def word? (word : String) (value : Json) (cs : List Char) : Option (Json × List Char) :=
  if word.toList.isPrefixOf cs then some (value, cs.drop word.length) else none

/-- The parts of an array or object, separated by commas, up to the closing bracket. -/
def parts? {α : Type} (close : Char) (part? : List Char → Option (α × List Char)) :
    Nat → List Char → Option (List α × List Char)
  | 0, _ => none
  | fuel + 1, cs => do
    let (part, rest) ← part? (skipSpaces cs)
    match skipSpaces rest with
    | c :: rest =>
      if c = close then return ([part], rest)
      else if c = ',' then
        let (parts, rest) ← parts? close part? fuel rest
        return (part :: parts, rest)
      else none
    | [] => none

/-- The parts of an array or object, of which there may be none. -/
def enclosed? {α : Type} (close : Char) (part? : List Char → Option (α × List Char))
    (cs : List Char) : Option (List α × List Char) :=
  match skipSpaces cs with
  | c :: rest => if c = close then some ([], rest) else parts? close part? cs.length (c :: rest)
  | [] => none

/-- A member of an object. -/
def member? (value? : List Char → Option (Json × List Char)) (cs : List Char) :
    Option ((String × Json) × List Char) :=
  match cs with
  | '"' :: rest => do
    let (name, rest) ← stringBody? rest
    match skipSpaces rest with
    | ':' :: rest =>
      let (value, rest) ← value? (skipSpaces rest)
      return ((String.ofList name, value), rest)
    | _ => none
  | _ => none

/-- A document in which at most so many arrays and objects are nested, at the front of a text that
does not start with a space. -/
def value? : Nat → List Char → Option (Json × List Char)
  | _, [] => none
  | _, '"' :: rest => (stringBody? rest).map fun (s, rest) => (string (String.ofList s), rest)
  | _, '-' :: rest => magnitude? true rest
  | 0, c :: rest => if c = '[' || c = '\x7b' then none else plain? (c :: rest)
  | depth + 1, c :: rest =>
    if c = '[' then (enclosed? ']' (value? depth) rest).map fun (items, rest) => (array items, rest)
    else if c = '\x7b' then
      (enclosed? '\x7d' (member? (value? depth)) rest).map fun (members, rest) =>
        (object members, rest)
    else plain? (c :: rest)
where
  /-- A word or a number without a sign. -/
  plain? (cs : List Char) : Option (Json × List Char) :=
    word? "null" null cs <|> word? "true" (bool true) cs <|> word? "false" (bool false) cs
      <|> magnitude? false cs

/-- How many arrays and objects may be nested. -/
def maxDepth : Nat := 127

/-- The document that a text is. -/
def ofText? (text : String) : Option Json := do
  let (value, rest) ← value? maxDepth (skipSpaces text.toList)
  if (skipSpaces rest).isEmpty then return value else none

end QueryTree.Json
