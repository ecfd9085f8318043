import QueryTree.Number.Binary

/-!
# Dates, times and durations

The calendar, signed durations, and moments made of a date and a time of day.

The documented behaviour of dates and durations in nanoseconds is followed: dates are those of the
proleptic Gregorian calendar from the year -262143 to the year 262142, a leap second is a nanosecond
of a thousand million or more, a duration counts at most 64 bits of milliseconds, and a moment or a
duration out of these ranges does not exist.  Both are written as ISO 8601 writes them.
-/

namespace QueryTree

/-! ## The calendar

Dates of the proleptic Gregorian calendar as day numbers, counted from 0 for the first of January
of year 1.
-/

/-- A date by year, month and day. -/
structure CalendarDate where
  year : Int
  month : Nat
  day : Nat
deriving DecidableEq

namespace Calendar

/-- Days from the first of March of year 0 to the first of January of year 1. -/
def marchOffset : Int := 306

/-- Days in 400 years. -/
def daysPerEra : Int := 146097

/-- Whether a year has 366 days. -/
def isLeap (year : Int) : Bool :=
  year % 4 = 0 && (year % 100 ≠ 0 || year % 400 = 0)

/-- The number of days in a month. -/
def monthLength (year : Int) (month : Nat) : Nat :=
  if month = 2 then (if isLeap year then 29 else 28)
  else if month = 4 || month = 6 || month = 9 || month = 11 then 30
  else 31

/-- The day number of a date.  Years are counted from March, so that a leap day comes last. -/
def toDay (date : CalendarDate) : Int :=
  let year := if date.month ≤ 2 then date.year - 1 else date.year
  let month := if date.month ≤ 2 then date.month + 9 else date.month - 3
  let era := year.fdiv 400
  let yearOfEra := year - era * 400
  let dayOfYear : Int := ((153 * month + 2) / 5 + date.day - 1 : Nat)
  let dayOfEra := yearOfEra * 365 + yearOfEra / 4 - yearOfEra / 100 + dayOfYear
  era * daysPerEra + dayOfEra - marchOffset

/-- The date of a day number. -/
def ofDay (day : Int) : CalendarDate :=
  let shifted := day + marchOffset
  let era := shifted.fdiv daysPerEra
  let dayOfEra := shifted - era * daysPerEra
  let yearOfEra :=
    (dayOfEra - dayOfEra / 1460 + dayOfEra / 36524 - dayOfEra / 146096) / 365
  let dayOfYear := dayOfEra - (365 * yearOfEra + yearOfEra / 4 - yearOfEra / 100)
  let month := ((5 * dayOfYear + 2) / 153).toNat
  let dayOfMonth := (dayOfYear - (153 * month + 2) / 5 + 1).toNat
  let year := yearOfEra + era * 400
  if month < 10 then ⟨year, month + 3, dayOfMonth⟩ else ⟨year + 1, month - 9, dayOfMonth⟩

/-- The position of a day in its year, from 1. -/
def dayOfYear (day : Int) : Int :=
  day - toDay ⟨(ofDay day).year, 1, 1⟩ + 1

/-- The first and the last year that dates may have. -/
def firstYear : Int := -262143

/-- The last year that dates may have. -/
def lastYear : Int := 262142

/-- The first day of the first year. -/
def firstDay : Int := toDay ⟨firstYear, 1, 1⟩

/-- The last day of the last year. -/
def lastDay : Int := toDay ⟨lastYear, 12, 31⟩

/-- The day number of a date, if there is such a date. -/
def day? (year : Int) (month day : Nat) : Option Int :=
  if firstYear ≤ year && year ≤ lastYear && 1 ≤ month && month ≤ 12 && 1 ≤ day
      && day ≤ monthLength year month then
    some (toDay ⟨year, month, day⟩)
  else none

end Calendar

/-! ## Time spans

Signed durations in nanoseconds, limited to what 64 bits can count in milliseconds.
-/

/-- A duration. -/
structure TimeSpan where
  nanoseconds : Int
deriving DecidableEq

namespace TimeSpan

/-- Nanoseconds in a millisecond. -/
def nanosPerMilli : Int := 1000000

/-- Nanoseconds in a second. -/
def nanosPerSecond : Int := 1000000000

/-- The longest duration, in milliseconds. -/
def maxMillis : Int := Nat.pow 2 63 - 1

/-- The empty duration. -/
def zero : TimeSpan := ⟨0⟩

/-- A duration, if it is not too long. -/
def ofNanos? (nanoseconds : Int) : Option TimeSpan :=
  if nanoseconds.natAbs ≤ (maxMillis * nanosPerMilli).natAbs then some ⟨nanoseconds⟩ else none

/-- A duration in milliseconds, if it is not too long. -/
def ofMillis? (milliseconds : Int) : Option TimeSpan :=
  ofNanos? (milliseconds * nanosPerMilli)

/-- The whole milliseconds, toward zero. -/
def milliseconds (span : TimeSpan) : Int := span.nanoseconds.tdiv nanosPerMilli

/-- The whole seconds, toward zero. -/
def seconds (span : TimeSpan) : Int := span.nanoseconds.tdiv nanosPerSecond

/-- The whole minutes, toward zero. -/
def minutes (span : TimeSpan) : Int := span.seconds.tdiv 60

/-- The whole hours, toward zero. -/
def hours (span : TimeSpan) : Int := span.seconds.tdiv 3600

/-- The whole days, toward zero. -/
def days (span : TimeSpan) : Int := span.seconds.tdiv 86400

/-- A duration in seconds with as many decimals as it needs, after `PT`; the empty duration is
`P0D`. -/
def text (span : TimeSpan) : String :=
  if span.nanoseconds = 0 then "P0D"
  else
    let magnitude := span.nanoseconds.natAbs
    let seconds := magnitude / 1000000000
    let nanos := magnitude % 1000000000
    let sign := if span.nanoseconds < 0 then "-" else ""
    let fraction :=
      if nanos = 0 then ""
      else
        let figures := Nat.toDigits 10 nanos
        let figures := List.replicate (9 - figures.length) '0' ++ figures
        "." ++ String.ofList (figures.reverse.dropWhile (· = '0')).reverse
    sign ++ "PT" ++ toString seconds ++ fraction ++ "S"

end TimeSpan

/-! ## Dates with a time of day

A moment is a day, a second of the day and a nanosecond of the second.  A nanosecond of a thousand
million or more stands for a moment inside a leap second that follows the given second.
-/

/-- A moment without a time zone. -/
structure DateTime where
  day : Int
  second : Nat
  nanosecond : Nat
deriving DecidableEq

namespace DateTime

/-- Seconds in a day. -/
def secondsPerDay : Int := 86400

/-- Midnight of a day. -/
def midnight (day : Int) : DateTime := ⟨day, 0, 0⟩

/-- The first moment of year 1. -/
def minValue : DateTime := midnight 0

/-- The last millisecond of year 9999. -/
def maxValue : DateTime := ⟨Calendar.toDay ⟨9999, 12, 31⟩, 86399, 999000000⟩

/-- The order of moments. -/
def compare (left right : DateTime) : Ordering :=
  (Ord.compare left.day right.day).then
    ((Ord.compare left.second right.second).then (Ord.compare left.nanosecond right.nanosecond))

/-- The calendar date of a moment. -/
def date (moment : DateTime) : CalendarDate := Calendar.ofDay moment.day

/-- The hour of the day. -/
def hour (moment : DateTime) : Nat := moment.second / 3600

/-- The minute of the hour. -/
def minute (moment : DateTime) : Nat := moment.second / 60 % 60

/-- The second of the minute. -/
def secondOfMinute (moment : DateTime) : Nat := moment.second % 60

/-- A duration added within days: the second of the day, not yet reduced, and the nanosecond.
Leaving a leap second forward continues from the second it follows, and leaving it backward from
the next one. -/
def shift (moment : DateTime) (span : TimeSpan) : Int × Int :=
  let seconds := span.seconds
  let nanos := span.nanoseconds.tmod TimeSpan.nanosPerSecond
  let carry (second nanosecond : Int) : Int × Int :=
    if nanosecond < 0 then (second - 1, nanosecond + TimeSpan.nanosPerSecond)
    else if TimeSpan.nanosPerSecond ≤ nanosecond then
      (second + 1, nanosecond - TimeSpan.nanosPerSecond)
    else (second, nanosecond)
  let second : Int := moment.second
  let nanosecond : Int := moment.nanosecond
  if nanosecond < TimeSpan.nanosPerSecond then carry (second + seconds) (nanosecond + nanos)
  else if 0 < seconds || (0 < nanos && 2 * TimeSpan.nanosPerSecond ≤ nanosecond + nanos) then
    carry (second + seconds) (nanosecond - TimeSpan.nanosPerSecond + nanos)
  else if seconds < 0 then
    carry (second + 1 + seconds) (nanosecond - TimeSpan.nanosPerSecond + nanos)
  else (second, nanosecond + nanos)

/-- A moment moved by a duration, if it stays within the calendar. -/
def add? (moment : DateTime) (span : TimeSpan) : Option DateTime :=
  let (second, nanosecond) := moment.shift span
  let days := second.fdiv secondsPerDay
  let day := moment.day + days
  if Calendar.firstDay ≤ day && day ≤ Calendar.lastDay then
    some ⟨day, (second - days * secondsPerDay).toNat, nanosecond.toNat⟩
  else none

/-- A moment moved back by a duration. -/
def sub? (moment : DateTime) (span : TimeSpan) : Option DateTime :=
  moment.add? ⟨-span.nanoseconds⟩

/-- The duration from one moment to another, which counts a leap second in between. -/
def since (moment origin : DateTime) : TimeSpan :=
  let leap : Int :=
    if origin.second < moment.second && 1000000000 ≤ origin.nanosecond then 1
    else if moment.second < origin.second && 1000000000 ≤ moment.nanosecond then -1
    else 0
  let seconds := (moment.day - origin.day) * secondsPerDay
    + ((moment.second : Int) - origin.second) + leap
  ⟨seconds * TimeSpan.nanosPerSecond + ((moment.nanosecond : Int) - origin.nanosecond)⟩

/-- A number with leading zeros up to a width. -/
def padded (width n : Nat) : String :=
  let figures := Nat.toDigits 10 n
  String.ofList (List.replicate (width - figures.length) '0' ++ figures)

/-- A year with at least four digits, and with a sign where it is not between 0 and 9999. -/
def yearText (year : Int) : String :=
  if 0 ≤ year && year ≤ 9999 then padded 4 year.toNat
  else (if year < 0 then "-" else "+") ++ padded 4 year.natAbs

/-- The date and the time to the second; a moment inside a leap second shows it as the sixtieth or
a later one. -/
def text (moment : DateTime) : String :=
  let date := moment.date
  yearText date.year ++ "-" ++ padded 2 date.month ++ "-" ++ padded 2 date.day ++ "T"
    ++ padded 2 moment.hour ++ ":" ++ padded 2 moment.minute ++ ":"
    ++ padded 2 (moment.secondOfMinute + moment.nanosecond / 1000000000)

end DateTime

end QueryTree
