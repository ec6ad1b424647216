import Intake.Decoder
import Intake.Number.Binary64
import Intake.Time.Span

set_option autoImplicit false

/-!
When to try again: the delay after each failure grows by a factor up to a ceiling, and the number of
attempts is limited. Delays are computed in double arithmetic and rounded to whole nanoseconds; one
that cannot be represented has no value.
-/

namespace Intake.Bulk

open Intake.Json Intake.Number Intake.Time

structure RetryPolicy where
  maxRetries : UInt32
  initialBackoff : Span
  multiplier : Float
  maxBackoff : Span
  deriving Inhabited

namespace RetryPolicy

/-- Five attempts, half a second at first, doubling up to half a minute. -/
def standard : RetryPolicy := ⟨5, .ofMilliseconds 500, 2.0, .ofSeconds 30⟩

def secondsOf (s : Span) : Float :=
  Float.ofScientific s.seconds false 0 + Float.ofScientific s.subseconds false 0 / 1e9

/-- The length of that many seconds to the nearest nanosecond, if it can be represented. -/
def spanOf? (seconds : Float) : Option Span :=
  match Binary64.parts seconds with
  | .finite negative significand exponent =>
    if negative && significand ≠ 0 then none
    else
      let n := Binary64.roundHalfEven (significand * Nat.pow 2 exponent.toNat * Span.perSecond)
        (Nat.pow 2 (-exponent).toNat)
      if n < Span.limit then some ⟨n⟩ else none
  | _ => none

/-- Attempts beyond this one no longer lengthen the delay. -/
def growthLimit : Nat := 30

/-- The delay after the failure of an attempt, counted from one, in seconds. -/
def delaySeconds (p : RetryPolicy) (attempt : Nat) : Float :=
  let grown := secondsOf p.initialBackoff
    * Binary64.power p.multiplier (min attempt growthLimit - 1)
  Binary64.greatest (Binary64.least grown (secondsOf p.maxBackoff)) 0.0

/-- The delay after the failure of an attempt; none before the first. -/
def delay? (p : RetryPolicy) (attempt : Nat) : Option Span :=
  if attempt = 0 then some .zero else spanOf? (p.delaySeconds attempt)

def schedule? (p : RetryPolicy) : Option (List Span) :=
  (List.range p.maxRetries.toNat).mapM fun i => p.delay? (i + 1)

def total? (p : RetryPolicy) : Option Span := p.schedule?.bind Span.sum?

/-- Lengths of time are records of seconds and nanoseconds, and have no other members. -/
def spanDecoder : Decoder Span :=
  .record ⟨"struct Duration", "struct Duration", true⟩
    (.cons "secs" (.nat "u64" 64) none
      (.cons "nanos" (.nat "u32" 32) none .nil))
    fun (seconds, nanoseconds, _) =>
      let s := Span.ofParts seconds nanoseconds
      if s.nanoseconds < Span.limit then .ok s else .error (.rule "overflow deserializing Duration")

def decoder : Decoder RetryPolicy :=
  .record (.named "RetryPolicy" 4)
    (.cons "max_retries" (.nat "u32" 32) none
      (.cons "initial_backoff" spanDecoder none
        (.cons "backoff_multiplier" .float none
          (.cons "max_backoff" spanDecoder none .nil))))
    fun (maxRetries, initialBackoff, multiplier, maxBackoff, _) =>
      .ok ⟨UInt32.ofNat maxRetries, initialBackoff, multiplier, maxBackoff⟩

def spanToJson (s : Span) : Json :=
  .object [("secs", .nat s.seconds), ("nanos", .nat s.subseconds)]

def toJson (p : RetryPolicy) : Json :=
  .object [("max_retries", .nat p.maxRetries.toNat),
    ("initial_backoff", spanToJson p.initialBackoff),
    ("backoff_multiplier", .float p.multiplier), ("max_backoff", spanToJson p.maxBackoff)]

end RetryPolicy

/-- How far a policy has been used up: the number of failures so far. -/
structure RetryState where
  policy : RetryPolicy
  attempts : Nat := 0
  deriving Inhabited

namespace RetryState

def isExhausted (s : RetryState) : Bool := s.policy.maxRetries.toNat ≤ s.attempts

def fail (s : RetryState) : RetryState := { s with attempts := s.attempts + 1 }

def left (s : RetryState) : Nat := s.policy.maxRetries.toNat - s.attempts

theorem left_fail_lt {s : RetryState} (h : ¬ s.fail.isExhausted = true) :
    s.fail.left < s.left := by
  have more : ¬ s.policy.maxRetries.toNat ≤ s.attempts + 1 := fun le => h (decide_eq_true le)
  exact Nat.sub_lt_sub_left (Nat.lt_of_succ_lt (Nat.not_le.1 more)) (Nat.lt_succ_self _)

def delay? (s : RetryState) : Option Span := s.policy.delay? s.attempts

end RetryState

end Intake.Bulk
