import Intake.Bulk.Chunking
import Intake.Bulk.DeadLetter
import Intake.Bulk.Retry
import Intake.Number.Word

set_option autoImplicit false

/-!
Writing many items. Requests are submitted in chunks; what a call leaves, or the whole chunk after a
call that failed, is submitted again after a delay until nothing is left or the attempts are used
up. What is then still left goes to a dead-letter sink, and to a second one if the first refuses it.

A run yields its effects in order. It has no result only if a delay cannot be represented.
-/

namespace Intake.Bulk

open Intake.Text Intake.Time

/-- How the writing of one chunk ended. -/
inductive ChunkOutcome where
  | success (attempts accepted : Nat)
  | exhausted (attempts accepted : Nat) (residual : List PutRequest)
  deriving DecidableEq, Inhabited

namespace ChunkOutcome

def isSuccess : ChunkOutcome → Bool
  | .success _ _ => true
  | .exhausted _ _ _ => false

def attempts : ChunkOutcome → Nat
  | .success attempts _ => attempts
  | .exhausted attempts _ _ => attempts

def accepted : ChunkOutcome → Nat
  | .success _ accepted => accepted
  | .exhausted _ accepted _ => accepted

def residual : ChunkOutcome → List PutRequest
  | .success _ _ => []
  | .exhausted _ _ residual => residual

end ChunkOutcome

structure Summary where
  chunks : Nat := 0
  submitted : Nat := 0
  accepted : Nat := 0
  failed : Nat := 0
  exhaustedChunks : Nat := 0
  deriving DecidableEq, Repr, Inhabited

namespace Summary

def add (s : Summary) (outcome : ChunkOutcome) : Summary :=
  { s with
    chunks := s.chunks + 1
    accepted := s.accepted + outcome.accepted
    failed := s.failed + outcome.residual.length
    exhaustedChunks := s.exhaustedChunks + (if outcome.isSuccess then 0 else 1) }

def hasFailures (s : Summary) : Bool := 0 < s.failed

end Summary

inductive SinkRole where
  | primary
  | fallback
  deriving DecidableEq, Repr, Inhabited

inductive Effect where
  | submitted (table : String) (requests : List PutRequest) (answer : Except StoreFault Reply)
  | slept (delay : Span)
  /-- A letter is offered to a sink, which may refuse it. -/
  | offered (sink : SinkRole) (letter : DeadLetter) (fault : Option Fault)
  | logged (event : LogEvent)
  deriving Inhabited

/-- How one call changed a chunk: what has been accepted so far, what is still to be submitted, and
the fault if the call failed. -/
structure Round where
  accepted : Nat
  pending : List PutRequest
  fault : Option StoreFault

def Round.ofAnswer (table : String) (accepted : Nat) (pending : List PutRequest)
    (answer : Except StoreFault Reply) : Round :=
  match answer with
  | .ok reply =>
    let left := reply.unprocessed table
    ⟨accepted + (pending.length - left.length), left, none⟩
  | .error fault => ⟨accepted, pending, some fault⟩

def Round.isDone (r : Round) : Bool := r.fault.isNone && r.pending.isEmpty

def Round.event (r : Round) (table : String) (attempts : Nat) : LogEvent :=
  match r.fault with
  | some fault =>
    ⟨.warn, "Batch write failed, retrying whole chunk",
      [("table", table), ("attempt", Digits.text attempts), ("kind", fault.kind.text),
        ("error", fault.message)]⟩
  | none =>
    if r.pending.isEmpty then
      ⟨.debug, "Chunk written",
        [("table", table), ("attempts", Digits.text attempts),
          ("accepted", Digits.text r.accepted)]⟩
    else
      ⟨.debug, "Store left items unprocessed",
        [("table", table), ("attempt", Digits.text attempts),
          ("unprocessed", Digits.text r.pending.length)]⟩

def backingOff (table : String) (attempts : Nat) (delay : Span) : LogEvent :=
  ⟨.debug, "Backing off",
    [("table", table), ("attempt", Digits.text attempts),
      ("backoff_ms", Digits.text (delay.milliseconds % Number.Word.count 64))]⟩

/-- A chunk after its last call: how it ended, the fault of the last call if that failed, what
happened, and the state of the store. -/
structure Delivery (σ : Type) where
  outcome : ChunkOutcome
  lastFault : Option StoreFault
  effects : List Effect
  store : σ

def Delivery.after {σ : Type} (effects : List Effect) (d : Delivery σ) : Delivery σ :=
  { d with effects := effects ++ d.effects }

/-- Submits what is pending until nothing is left or no attempt is; `attempts` counts the calls,
`progress` the failures. -/
def deliver {σ : Type} (store : Store σ) (table : String) (progress : RetryState)
    (attempts accepted : Nat) (pending : List PutRequest) (state : σ) : Option (Delivery σ) :=
  let attempts := attempts + 1
  let call := store.write state table pending
  let round := Round.ofAnswer table accepted pending call.1
  let made := [Effect.submitted table pending call.1, .logged (round.event table attempts)]
  if round.isDone then some ⟨.success attempts round.accepted, none, made, call.2⟩
  else do
    let failed := progress.fail
    let delay ← failed.delay?
    let waited := made ++ [.logged (backingOff table attempts delay), Effect.slept delay]
    if failed.isExhausted then
      some ⟨.exhausted attempts round.accepted round.pending, round.fault, waited, call.2⟩
    else
      (deliver store table failed attempts round.accepted round.pending call.2).map (·.after waited)
  termination_by progress.left
  decreasing_by exact RetryState.left_fail_lt (by assumption)

structure Places (σ τ υ : Type) where
  store : σ
  primary : τ
  fallback : υ

/-- A writer: its store, its sinks, its policy, and the time that it stamps on letters. -/
structure Writer (σ τ υ : Type) where
  store : Store σ
  primary : Sink τ
  fallback : Sink υ
  policy : RetryPolicy := .standard
  chunker : Chunker := .full
  stamp : Instant

structure Run (σ τ υ α : Type) where
  value : α
  effects : List Effect
  places : Places σ τ υ

namespace Writer

variable {σ τ υ : Type}

def shown (w : Writer σ τ υ) : String :=
  let policy := Quoted.record "RetryPolicy"
    [("max_retries", Digits.text w.policy.maxRetries.toNat),
      ("initial_backoff", w.policy.initialBackoff.text),
      ("backoff_multiplier",
        String.ofList (Number.FloatText.Form.diagnostic.write w.policy.multiplier)),
      ("max_backoff", w.policy.maxBackoff.text)]
  let chunker := Quoted.record "Chunker" [("limit", Digits.text w.chunker.limit)]
  "BulkWriter \x7b policy: " ++ policy ++ ", chunker: " ++ chunker ++ ", .. \x7d"

/-- Offers a letter to the first sink, and to the second if the first refuses it. -/
def report (w : Writer σ τ υ) (letter : DeadLetter) (places : Places σ τ υ) :
    List Effect × Places σ τ υ :=
  let first := w.primary.report places.primary letter
  let offered := first.log.map Effect.logged ++ [.offered .primary letter first.fault]
  match first.fault with
  | none => (offered, { places with primary := first.state })
  | some fault =>
    let refused : LogEvent :=
      ⟨.error, "Failed to report dead letter, using fallback sink",
        [("table", letter.table), ("count", Digits.text letter.records.length),
          ("error", fault.message)]⟩
    let second := w.fallback.report places.fallback letter
    let lost := match second.fault with
      | none => []
      | some fault =>
        [Effect.logged ⟨.error, "Fallback dead-letter sink failed",
          [("table", letter.table), ("error", fault.message),
            ("keys", Quoted.list Quoted.quote letter.keys),
            ("records", Quoted.list PutRequest.shown letter.records)]⟩]
    (offered ++ [.logged refused] ++ second.log.map Effect.logged
        ++ [.offered .fallback letter second.fault] ++ lost,
      { places with primary := first.state, fallback := second.state })

def letter? (w : Writer σ τ υ) (table : String) (d : Delivery σ) : Option DeadLetter :=
  match d.outcome with
  | .success _ _ => none
  | .exhausted attempts _ residual =>
    some ⟨table, attempts, w.stamp, d.lastFault.map StoreFault.message, residual⟩

/-- What becomes of a chunk that has been delivered: if it was given up a letter is reported. -/
def conclude (w : Writer σ τ υ) (table : String) (places : Places σ τ υ) (d : Delivery σ) :
    Run σ τ υ ChunkOutcome :=
  let places := { places with store := d.store }
  match w.letter? table d with
  | none => ⟨d.outcome, d.effects, places⟩
  | some letter =>
    let (effects, places) := w.report letter places
    ⟨d.outcome, d.effects ++ effects, places⟩

/-- Writes one chunk; an empty one takes no call. -/
def writeChunk (w : Writer σ τ υ) (table : String) (chunk : List PutRequest)
    (places : Places σ τ υ) : Option (Run σ τ υ ChunkOutcome) :=
  if chunk.isEmpty then some ⟨.success 0 0, [], places⟩
  else (deliver w.store table ⟨w.policy, 0⟩ 0 0 chunk places.store).map (w.conclude table places)

def writeChunks (w : Writer σ τ υ) (table : String) (summary : Summary) (places : Places σ τ υ) :
    List (List PutRequest) → Option (Run σ τ υ Summary)
  | [] => some ⟨summary, [], places⟩
  | chunk :: chunks => do
    let first ← w.writeChunk table chunk places
    let others ← w.writeChunks table (summary.add first.value) first.places chunks
    return { others with effects := first.effects ++ others.effects }

def finished (table : String) (s : Summary) : LogEvent :=
  ⟨.info, "Bulk write finished",
    [("table", table), ("chunks", Digits.text s.chunks), ("submitted", Digits.text s.submitted),
      ("accepted", Digits.text s.accepted), ("failed", Digits.text s.failed)]⟩

def write (w : Writer σ τ υ) (table : String) (requests : List PutRequest)
    (places : Places σ τ υ) : Option (Run σ τ υ Summary) :=
  (w.writeChunks table { submitted := requests.length } places (w.chunker.split requests)).map
    fun run => { run with effects := run.effects ++ [.logged (finished table run.value)] }

end Writer

namespace Effect

def log (effects : List Effect) : List LogEvent :=
  effects.filterMap fun | .logged event => some event | _ => none

def calls (effects : List Effect) : List (String × List PutRequest) :=
  effects.filterMap fun | .submitted table requests _ => some (table, requests) | _ => none

def delays (effects : List Effect) : List Span :=
  effects.filterMap fun | .slept delay => some delay | _ => none

/-- The letters that a sink took in. -/
def letters (role : SinkRole) (effects : List Effect) : List DeadLetter :=
  effects.filterMap fun
    | .offered sink letter none => if sink = role then some letter else none
    | _ => none

end Effect

end Intake.Bulk
