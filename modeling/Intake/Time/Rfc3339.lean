import Intake.Time.Pattern

set_option autoImplicit false

/-!
Dates and times with a zone, in the form of the network date standard with some freedom: white
space between fields, a space or `T` before the time, and the word `UTC` as a zone.
-/

namespace Intake.Time.Rfc3339

open Intake.Text

def twoDigits : List Char → Except TimeFault (Nat × List Char)
  | a :: b :: rest =>
    if Digits.isDigit a && Digits.isDigit b then
      .ok (10 * Digits.digitValue a + Digits.digitValue b, rest)
    else .error .invalid
  | [c] => .error (if c.utf8Size = 1 then .tooShort else .invalid)
  | [] => .error .tooShort

def hoursAndMinutes (text : List Char) : Except TimeFault (Nat × List Char) := do
  let (hours, rest) ← twoDigits text
  let (minutes, rest) ← twoDigits (rest.dropWhile fun c => c = ':' || Blank.isBlank c)
  if 60 ≤ minutes then .error .outOfRange
  else return (hours * 3600 + minutes * 60, rest)

/-- An offset ahead of universal time in seconds. -/
def offset (text : List Char) : Except TimeFault (Int × List Char) :=
  match text with
  | [] => .error .tooShort
  | c :: rest =>
    if c = 'Z' || c = 'z' then .ok (0, rest)
    else if c = '+' then (hoursAndMinutes rest).map fun r => ((r.1 : Int), r.2)
    else if c = '-' || c = '−' then (hoursAndMinutes rest).map fun r => (-(r.1 : Int), r.2)
    else .error .invalid

def zone (text : List Char) : Except TimeFault (Int × List Char) :=
  if (text.take 3).map Char.toUpper == ['U', 'T', 'C'] then .ok (0, text.drop 3) else offset text

def separator : List Char → Except TimeFault (List Char)
  | [] => .error .tooShort
  | c :: rest => if c = 'T' || c = 't' || c = ' ' then .ok rest else .error .invalid

def read (text : List Char) : Except TimeFault Instant := do
  let (fields, rest) ← Pattern.run Pattern.isoDate {} text
  let (fields, rest) ← Pattern.run Pattern.isoTime fields (← separator rest)
  let (ahead, rest) ← zone (Blank.trimStart rest)
  if !(Blank.trimStart rest).isEmpty then .error .tooLong
  else
    let shown ← fields.dateTime
    if ahead.natAbs < 86400 then
      let instant := shown.toInstant ahead
      if (Date.ofDays (instant.seconds / 86400)).isValid then return instant
      else .error .impossible
    else .error .outOfRange

end Intake.Time.Rfc3339
