import Intake.Number.Word
import Intake.Text.Digits

set_option autoImplicit false

/-!
Lengths of time in whole nanoseconds. A length can be represented while its seconds fit in
sixty-four bits; sums that leave that range are refused.
-/

namespace Intake.Time

open Intake.Text

structure Span where
  nanoseconds : Nat
  deriving DecidableEq, Repr, Inhabited

namespace Span

def perSecond : Nat := 1000000000

/-- Lengths stay below this many nanoseconds. -/
def limit : Nat := Number.Word.count 64 * perSecond

def zero : Span := ⟨0⟩

/-- Seconds and nanoseconds; the nanoseconds may exceed a second. -/
def ofParts (seconds nanoseconds : Nat) : Span := ⟨seconds * perSecond + nanoseconds⟩

def ofSeconds (seconds : Nat) : Span := ofParts seconds 0

def ofMilliseconds (milliseconds : Nat) : Span := ⟨milliseconds * 1000000⟩

def seconds (s : Span) : Nat := s.nanoseconds / perSecond

def subseconds (s : Span) : Nat := s.nanoseconds % perSecond

def milliseconds (s : Span) : Nat := s.nanoseconds / 1000000

def ceilMilliseconds (s : Span) : Nat := (s.nanoseconds + 999999) / 1000000

def Representable (s : Span) : Prop := s.nanoseconds < limit

instance (s : Span) : Decidable s.Representable := inferInstanceAs (Decidable (_ < _))

def add? (a b : Span) : Option Span :=
  if a.nanoseconds + b.nanoseconds < limit then some ⟨a.nanoseconds + b.nanoseconds⟩ else none

/-- The sum of lengths, if every partial sum fits. -/
def sum? (spans : List Span) : Option Span := spans.foldlM add? zero

/-- A number of units with its fraction, zeros at the end left out: `whole` units and `part` of
`10 ^ places`. -/
def unitText (whole part places : Nat) (unit : String) : String :=
  let fraction := ((Digits.padded places part).reverse.dropWhile (· = '0')).reverse
  let point := if fraction.isEmpty then [] else '.' :: fraction
  String.ofList (Digits.decimal whole ++ point) ++ unit

/-- The length in the largest unit of which it holds a whole one. -/
def text (s : Span) : String :=
  if 0 < s.seconds then unitText s.seconds s.subseconds 9 "s"
  else if 1000000 ≤ s.nanoseconds then
    unitText (s.nanoseconds / 1000000) (s.nanoseconds % 1000000) 6 "ms"
  else if 1000 ≤ s.nanoseconds then
    unitText (s.nanoseconds / 1000) (s.nanoseconds % 1000) 3 "µs"
  else unitText s.nanoseconds 0 0 "ns"

end Span

end Intake.Time
