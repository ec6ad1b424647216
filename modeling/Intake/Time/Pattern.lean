import Intake.Number.Word
import Intake.Text.Blank
import Intake.Text.Digits
import Intake.Time.Calendar

set_option autoImplicit false

/-!
Reading dates and times by a pattern of fields and literals. Fields may have white space in front
and need not be padded; a date or time that the calendar does not have is out of range.
-/

namespace Intake.Time

open Intake.Text

inductive TimeFault where
  | outOfRange
  | impossible
  | notEnough
  | invalid
  | tooShort
  | tooLong
  | badFormat
  deriving DecidableEq, Repr, Inhabited

def TimeFault.message : TimeFault → String
  | .outOfRange => "input is out of range"
  | .impossible => "no possible date and time matching input"
  | .notEnough => "input is not enough for unique date and time"
  | .invalid => "input contains invalid characters"
  | .tooShort => "premature end of input"
  | .tooLong => "trailing input"
  | .badFormat => "bad or unsupported format string"

inductive Field where
  | year
  | month
  | day
  | hour
  | minute
  | second
  | nanosecond
  deriving DecidableEq, Repr

inductive PatternItem where
  | literal (text : List Char)
  | space
  | field (f : Field)
  /-- A point and up to nine digits that count, or nothing. -/
  | fraction
  | digits (count : Nat)
  | unsupported
  deriving DecidableEq, Repr

structure Fields where
  year : Option Int := none
  month : Option Nat := none
  day : Option Nat := none
  hour : Option Nat := none
  minute : Option Nat := none
  second : Option Nat := none
  nanosecond : Option Nat := none
  deriving Repr

namespace Fields

/-- Sets a field once; a second time only to the same value. -/
def agree {α : Type} [DecidableEq α] (old : Option α) (new : α) : Except TimeFault (Option α) :=
  match old with
  | none => .ok (some new)
  | some value => if value = new then .ok (some value) else .error .impossible

def within (low high : Nat) (n : Int) : Except TimeFault Nat :=
  if (low : Int) ≤ n && n ≤ (high : Int) then .ok n.toNat else .error .outOfRange

def set (fields : Fields) (f : Field) (n : Int) : Except TimeFault Fields :=
  match f with
  | .year =>
    if n < -2147483648 || 2147483647 < n then .error .outOfRange
    else do return { fields with year := ← agree fields.year n }
  | .month => do return { fields with month := ← agree fields.month (← within 1 12 n) }
  | .day => do return { fields with day := ← agree fields.day (← within 1 31 n) }
  | .hour => do return { fields with hour := ← agree fields.hour (← within 0 23 n) }
  | .minute => do return { fields with minute := ← agree fields.minute (← within 0 59 n) }
  | .second => do return { fields with second := ← agree fields.second (← within 0 60 n) }
  | .nanosecond => do
    return { fields with nanosecond := ← agree fields.nanosecond (← within 0 999999999 n) }

def date (fields : Fields) : Except TimeFault Date :=
  match fields.year, fields.month, fields.day with
  | some year, some month, some day =>
    let d : Date := ⟨year, month, day⟩
    if d.isValid then .ok d else .error .outOfRange
  | _, _, _ => .error .notEnough

/-- The date and time that the fields name; second sixty is a leap second. -/
def dateTime (fields : Fields) : Except TimeFault DateTime := do
  let date ← fields.date
  match fields.hour, fields.minute with
  | some hour, some minute =>
    let shown := fields.second.getD 0
    let second := if shown = 60 then 59 else shown
    let leap := if shown = 60 then 1000000000 else 0
    match fields.nanosecond, fields.second with
    | some _, none => .error .notEnough
    | some n, some _ => .ok ⟨date, hour, minute, second, leap + n⟩
    | none, _ => .ok ⟨date, hour, minute, second, leap⟩
  | _, _ => .error .notEnough

end Fields

namespace Pattern

def byteLength (text : List Char) : Nat := text.foldl (fun size c => size + c.utf8Size) 0

/-- The digits in front, at most `limit` of them if there is a limit, and the text behind. -/
def takeDigits (limit : Option Nat) (text : List Char) : List Char × List Char :=
  let all := text.takeWhile Digits.isDigit
  let digits := match limit with
    | some n => all.take n
    | none => all
  (digits, text.drop digits.length)

/-- A number of at least one digit. -/
def natural (limit : Option Nat) (text : List Char) : Except TimeFault (Nat × List Char) :=
  match takeDigits limit text with
  | ([], _) => .error (if text.isEmpty then .tooShort else .invalid)
  | (digits, rest) =>
    let n := Digits.value digits
    if n < Number.Word.count 63 then .ok (n, rest) else .error .outOfRange

/-- A year: up to four digits, or a sign and any number of them. -/
def year : List Char → Except TimeFault (Int × List Char)
  | '-' :: rest => (natural none rest).map fun r => (-(r.1 : Int), r.2)
  | '+' :: rest => (natural none rest).map fun r => ((r.1 : Int), r.2)
  | text => (natural (some 4) text).map fun r => ((r.1 : Int), r.2)

def number (f : Field) (text : List Char) : Except TimeFault (Int × List Char) :=
  match f with
  | .year => year text
  | .nanosecond => (natural (some 9) text).map fun r => ((r.1 : Int), r.2)
  | _ => (natural (some 2) text).map fun r => ((r.1 : Int), r.2)

/-- Digits of a fraction of a second as nanoseconds; digits beyond the ninth do not count. -/
def fraction (text : List Char) : Except TimeFault (Nat × List Char) := do
  let (n, rest) ← natural (some 9) text
  let read := text.length - rest.length
  return (n * Nat.pow 10 (9 - read), rest.dropWhile Digits.isDigit)

def step (item : PatternItem) (fields : Fields) (text : List Char) :
    Except TimeFault (Fields × List Char) :=
  match item with
  | .literal expected =>
    if expected.isPrefixOf text then .ok (fields, text.drop expected.length)
    else if byteLength text < byteLength expected then .error .tooShort
    else .error .invalid
  | .space => .ok (fields, Blank.trimStart text)
  | .field f => do
    let (n, rest) ← number f (Blank.trimStart text)
    return (← fields.set f n, rest)
  | .fraction =>
    match text with
    | '.' :: digits => do
      let (n, rest) ← fraction digits
      return (← fields.set .nanosecond n, rest)
    | _ => .ok (fields, text)
  | .digits count =>
    let (digits, rest) := takeDigits (some count) text
    if byteLength text < count then .error .tooShort
    else if digits.length < count then .error .invalid
    else do
      let fields ← fields.set .nanosecond (Digits.value digits * Nat.pow 10 (9 - count) : Nat)
      return (fields, rest)
  | .unsupported => .error .badFormat

def run : List PatternItem → Fields → List Char → Except TimeFault (Fields × List Char)
  | [], fields, text => .ok (fields, text)
  | item :: items, fields, text => do
    let (fields, rest) ← step item fields text
    run items fields rest

def read (pattern : List PatternItem) (text : List Char) : Except TimeFault DateTime := do
  let (fields, rest) ← run pattern {} text
  if rest.isEmpty then fields.dateTime else .error .tooLong

def isoDate : List PatternItem :=
  [.field .year, .space, .literal ['-'], .field .month, .space, .literal ['-'], .field .day]

def isoTime : List PatternItem :=
  [.field .hour, .space, .literal [':'], .field .minute, .space, .literal [':'],
    .field .second, .fraction, .space]

/-- A date and a time with the letter `T` between them. -/
def isoDateTime : List PatternItem := isoDate ++ [.space, .literal ['T']] ++ isoTime

def directive : List Char → List PatternItem × List Char
  | 'Y' :: rest => ([.field .year], rest)
  | 'm' :: rest => ([.field .month], rest)
  | 'd' :: rest => ([.field .day], rest)
  | 'e' :: rest => ([.field .day], rest)
  | 'H' :: rest => ([.field .hour], rest)
  | 'k' :: rest => ([.field .hour], rest)
  | 'M' :: rest => ([.field .minute], rest)
  | 'S' :: rest => ([.field .second], rest)
  | 'f' :: rest => ([.field .nanosecond], rest)
  | 'F' :: rest =>
    ([.field .year, .literal ['-'], .field .month, .literal ['-'], .field .day], rest)
  | 'R' :: rest => ([.field .hour, .literal [':'], .field .minute], rest)
  | 'T' :: rest =>
    ([.field .hour, .literal [':'], .field .minute, .literal [':'], .field .second], rest)
  | 't' :: rest => ([.space], rest)
  | 'n' :: rest => ([.space], rest)
  | '%' :: rest => ([.literal ['%']], rest)
  | '.' :: 'f' :: rest => ([.fraction], rest)
  | '.' :: '3' :: 'f' :: rest => ([.fraction], rest)
  | '.' :: '6' :: 'f' :: rest => ([.fraction], rest)
  | '.' :: '9' :: 'f' :: rest => ([.fraction], rest)
  | '3' :: 'f' :: rest => ([.digits 3], rest)
  | '6' :: 'f' :: rest => ([.digits 6], rest)
  | '9' :: 'f' :: rest => ([.digits 9], rest)
  | _ => ([.unsupported], [])

private theorem length_directive_le (text : List Char) :
    (directive text).2.length ≤ text.length := by
  unfold directive
  split <;> simp <;> omega

/-- The pattern that a format with percent directives spells; white space stands for any. -/
def ofFormat : List Char → List PatternItem
  | [] => []
  | '%' :: rest =>
    (directive rest).1 ++ ofFormat (directive rest).2
  | c :: rest => (if Blank.isBlank c then .space else .literal [c]) :: ofFormat rest
  termination_by text => text.length
  decreasing_by
    · exact Nat.lt_succ_of_le (length_directive_le rest)
    · exact Nat.lt_succ_self rest.length

end Pattern

end Intake.Time
