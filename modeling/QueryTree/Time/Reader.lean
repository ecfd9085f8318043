import QueryTree.Number.Binary
import QueryTree.Text.Intervals
import QueryTree.Time.DateTime

/-!
# Reading dates

Dates with a time of day from text: date and time joined by `T` or separated by blanks, with
seconds and an optional fraction, or without seconds after `T`, or a date alone.  Blanks may stand
before every number.

The fields have their documented widths: a year four digits, or any number of them after a sign,
the other numbers at most two, and a fraction nine digits that count.  A text has to name an
existing date and time, the sixtieth second being a leap second, and nothing may follow it.
-/

namespace QueryTree.DateTime

/-- A number of at most `limit` digits at the front of a text, after blanks; at least one digit
has to be there. -/
def number? (limit : Nat) (cs : List Char) : Option (Nat × List Char) :=
  let cs := Text.trimStart cs
  let figures := (cs.take limit).takeWhile Char.isDigit
  if figures.isEmpty then none
  else
    let value := figures.foldl (fun n c => n * 10 + (c.toNat - 48)) 0
    -- numbers are counted in 64 bits
    if Nat.pow 2 63 ≤ value then none else some (value, cs.drop figures.length)

/-- A year: four digits, or any number of digits after a sign. -/
def year? (cs : List Char) : Option (Int × List Char) :=
  let unlimited := cs.length
  match Text.trimStart cs with
  | '-' :: rest => (bare? unlimited rest).map fun (n, rest) => (-(n : Int), rest)
  | '+' :: rest => (bare? unlimited rest).map fun (n, rest) => ((n : Int), rest)
  | rest => (number? 4 rest).map fun (n, rest) => ((n : Int), rest)
where
  /-- A number with no blanks before it. -/
  bare? (limit : Nat) : List Char → Option (Nat × List Char)
    | [] => none
    | c :: rest => if c.isDigit then number? limit (c :: rest) else none

/-- A character that has to come next. -/
def expect? (wanted : Char) : List Char → Option (List Char)
  | [] => none
  | c :: rest => if c = wanted then some rest else none

/-- The fraction of a second, in nanoseconds: up to nine digits count and further ones are passed
over.  It may be absent. -/
def fraction? : List Char → Option (Nat × List Char)
  | '.' :: rest =>
    let figures := (rest.take 9).takeWhile Char.isDigit
    if figures.isEmpty then none
    else
      let value := figures.foldl (fun n c => n * 10 + (c.toNat - 48)) 0
      some (value * Nat.pow 10 (9 - figures.length),
        (rest.drop figures.length).dropWhile Char.isDigit)
  | rest => some (0, rest)

/-- A date: year, month and day joined by hyphens. -/
def date? (cs : List Char) : Option (Int × List Char) := do
  let (year, cs) ← year? cs
  let cs ← expect? '-' cs
  let (month, cs) ← number? 2 cs
  let cs ← expect? '-' cs
  let (day, cs) ← number? 2 cs
  let day ← Calendar.day? year month day
  return (day, cs)

/-- A time of day: hour and minute, and seconds with a fraction if they are wanted.  The sixtieth
second is the leap second after the one before it. -/
def time? (withSeconds : Bool) (cs : List Char) : Option ((Nat × Nat) × List Char) := do
  let (hour, cs) ← number? 2 cs
  let cs ← expect? ':' cs
  let (minute, cs) ← number? 2 cs
  if 23 < hour || 59 < minute then none
  else if withSeconds then
    let cs ← expect? ':' cs
    let (second, cs) ← number? 2 cs
    let (nanosecond, cs) ← fraction? cs
    if 60 < second then none
    else if second = 60 then
      return ((hour * 3600 + minute * 60 + 59, nanosecond + 1000000000), cs)
    else return ((hour * 3600 + minute * 60 + second, nanosecond), cs)
  else return ((hour * 3600 + minute * 60, 0), cs)

/-- A date and a time of day, which take up the whole text. -/
def moment? (separator : List Char → Option (List Char)) (withSeconds : Bool) (cs : List Char) :
    Option DateTime := do
  let (day, cs) ← date? cs
  let cs ← separator cs
  let ((second, nanosecond), cs) ← time? withSeconds cs
  if cs.isEmpty then return ⟨day, second, nanosecond⟩ else none

/-- A moment in one of the accepted forms. -/
def ofText? (text : String) : Option DateTime :=
  let cs := text.toList
  moment? (expect? 'T') true cs
    <|> moment? (some ∘ Text.trimStart) true cs
    <|> moment? (expect? 'T') false cs
    <|> (date? cs).bind fun (day, rest) => if rest.isEmpty then some (midnight day) else none

end QueryTree.DateTime
