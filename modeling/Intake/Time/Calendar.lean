import Intake.Text.Digits

set_option autoImplicit false

/-!
The proleptic Gregorian calendar and the instants counted from 1970. A leap second is the second
before it with a nanosecond count of a whole second or more.
-/

namespace Intake.Time

open Intake.Text

structure Date where
  year : Int
  month : Nat
  day : Nat
  deriving DecidableEq, Repr, Inhabited

/-- A day and a time on it, without a zone. -/
structure DateTime where
  date : Date
  hour : Nat
  minute : Nat
  second : Nat
  nanosecond : Nat
  deriving DecidableEq, Repr, Inhabited

/-- A point in time: seconds since the start of 1970 in universal time, and nanoseconds on top;
these reach a second or more inside a leap second. -/
structure Instant where
  seconds : Int
  nanosecond : Nat
  deriving DecidableEq, Repr, Inhabited

namespace Date

def firstYear : Int := -262143

def lastYear : Int := 262142

def isLeap (year : Int) : Bool := year % 4 = 0 && (year % 100 ≠ 0 || year % 400 = 0)

def monthLength (year : Int) (month : Nat) : Nat :=
  if month = 2 then if isLeap year then 29 else 28
  else if month = 4 || month = 6 || month = 9 || month = 11 then 30
  else 31

def isValid (d : Date) : Bool :=
  firstYear ≤ d.year && d.year ≤ lastYear && 1 ≤ d.month && d.month ≤ 12
    && 1 ≤ d.day && d.day ≤ monthLength d.year d.month

/-- Days from the first of January 1970, counted in years that begin with March so that a leap day
ends its year. -/
def toDays (d : Date) : Int :=
  let year := if d.month ≤ 2 then d.year - 1 else d.year
  let era := year / 400
  let yearOfEra := year % 400
  let month := (d.month + 9) % 12
  let dayOfYear : Int := ((153 * month + 2) / 5 + d.day : Nat) - 1
  let dayOfEra := yearOfEra * 365 + yearOfEra / 4 - yearOfEra / 100 + dayOfYear
  era * 146097 + dayOfEra - 719468

def ofDays (days : Int) : Date :=
  let shifted := days + 719468
  let era := shifted / 146097
  let dayOfEra := shifted % 146097
  let yearOfEra := (dayOfEra - dayOfEra / 1460 + dayOfEra / 36524 - dayOfEra / 146096) / 365
  let dayOfYear := dayOfEra - (365 * yearOfEra + yearOfEra / 4 - yearOfEra / 100)
  let month := (5 * dayOfYear + 2) / 153
  let day := dayOfYear - (153 * month + 2) / 5 + 1
  let civilMonth := if month < 10 then month + 3 else month - 9
  let year := yearOfEra + era * 400
  ⟨if civilMonth ≤ 2 then year + 1 else year, civilMonth.toNat, day.toNat⟩

/-- Year, month and day with hyphens; a year of other than four digits carries a sign. -/
def toChars (d : Date) : List Char :=
  let year :=
    if 0 ≤ d.year && d.year ≤ 9999 then Digits.padded 4 d.year.natAbs
    else (if d.year < 0 then '-' else '+') :: Digits.padded 4 d.year.natAbs
  year ++ '-' :: Digits.padded 2 d.month ++ '-' :: Digits.padded 2 d.day

end Date

/-- Nanoseconds behind a point, in the fewest of none, three, six or nine digits. -/
def fractionChars (nanosecond : Nat) : List Char :=
  if nanosecond = 0 then []
  else if nanosecond % 1000000 = 0 then '.' :: Digits.padded 3 (nanosecond / 1000000)
  else if nanosecond % 1000 = 0 then '.' :: Digits.padded 6 (nanosecond / 1000)
  else '.' :: Digits.padded 9 nanosecond

namespace DateTime

/-- The time of day with its fraction; a leap second is second sixty. -/
def clockChars (t : DateTime) : List Char :=
  let leap := t.nanosecond / 1000000000
  Digits.padded 2 t.hour ++ ':' :: Digits.padded 2 t.minute ++ ':' ::
    Digits.padded 2 (t.second + leap) ++ fractionChars (t.nanosecond % 1000000000)

def text (t : DateTime) : String := String.ofList (t.date.toChars ++ 'T' :: t.clockChars)

def spacedText (t : DateTime) : String := String.ofList (t.date.toChars ++ ' ' :: t.clockChars)

/-- The instant at which clocks that far ahead of universal time show this time. -/
def toInstant (t : DateTime) (offset : Int) : Instant :=
  ⟨t.date.toDays * 86400 + (t.hour * 3600 + t.minute * 60 + t.second : Nat) - offset,
    t.nanosecond⟩

end DateTime

namespace Instant

def toDateTime (i : Instant) : DateTime :=
  let rest := (i.seconds % 86400).toNat
  ⟨Date.ofDays (i.seconds / 86400), rest / 3600, rest / 60 % 60, rest % 60, i.nanosecond⟩

def text (i : Instant) : String := i.toDateTime.text ++ "Z"

/-- Unix seconds, a point and six digits of microseconds. -/
def unixText (i : Instant) : String :=
  String.ofList (Digits.integer i.seconds ++ '.' :: Digits.padded 6 (i.nanosecond / 1000))

end Instant

end Intake.Time
