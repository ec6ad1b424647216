import Intake.Bulk.Fault
import Intake.Bulk.Store
import Intake.Json.Printer
import Intake.Log
import Intake.Text.Utf8
import Intake.Time.Rfc3339

set_option autoImplicit false

/-!
Dead letters: the requests of a chunk that were given up, and the sinks that take them in.
-/

namespace Intake.Bulk

open Intake.Json Intake.Text Intake.Time

/-- What is left of a chunk that was given up. -/
structure DeadLetter where
  table : String
  attempts : Nat
  failedAt : Instant
  lastError : Option String
  records : List PutRequest
  deriving DecidableEq, Inhabited

namespace DeadLetter

def instantDecoder : Decoder Instant :=
  .parsed "an RFC 3339 formatted date and time string" fun text =>
    match Rfc3339.read text.toList with
    | .ok instant => .ok instant
    | .error fault => .error (.rule fault.message)

def decoder : Decoder DeadLetter :=
  .record (.named "DeadLetter" 5)
    (.cons "table" .string none
      (.cons "attempts" (.nat "u32" 32) none
        (.cons "failed_at" instantDecoder none
          (.cons "last_error" (.option .string) none
            (.cons "records" (.list PutRequest.decoder) none .nil)))))
    fun (table, attempts, failedAt, lastError, records, _) =>
      .ok ⟨table, attempts, failedAt, lastError, records⟩

def toJson (l : DeadLetter) : Json :=
  .object [("table", .string l.table), ("attempts", .nat l.attempts),
    ("failed_at", .string l.failedAt.text), ("last_error", .option .string l.lastError),
    ("records", .list PutRequest.toJson l.records)]

def keys (l : DeadLetter) : List String := l.records.filterMap (·.key?)

end DeadLetter

/-- What a sink makes of a letter: why it refuses it if it does, and what it logs. -/
structure SinkAnswer (τ : Type) where
  fault : Option Fault
  log : List LogEvent
  state : τ

structure Sink (τ : Type) where
  report : τ → DeadLetter → SinkAnswer τ

namespace Sink

/-- Logs each letter with its requests and keeps nothing. -/
def log {τ : Type} : Sink τ where
  report state l :=
    ⟨none, [⟨.error, "Failed to write chunk after max retries",
      [("table", l.table), ("attempts", Digits.text l.attempts),
        ("count", Digits.text l.records.length),
        ("last_error", Quoted.option Quoted.quote l.lastError),
        ("records", (Json.list PutRequest.toJson l.records).text)]⟩], state⟩

/-- Keeps letters, or refuses each with the same fault. -/
def memory (fault : Option String) : Sink (List DeadLetter) where
  report letters l :=
    match fault with
    | some reason => ⟨some (.io reason), [], letters⟩
    | none => ⟨none, [], letters ++ [l]⟩

end Sink

/-- What becomes of bytes that are appended to a file: all are written, or only some of those in
front before a fault. -/
inductive AppendOutcome where
  | whole
  | torn (written : Nat) (fault : String)
  deriving DecidableEq, Repr, Inhabited

/-- A file that letters are appended to: its bytes and the number of letters so far. -/
structure LetterFile where
  content : List UInt8
  reports : Nat
  deriving DecidableEq, Repr, Inhabited

namespace LetterFile

def empty : LetterFile := ⟨[], 0⟩

def line (l : DeadLetter) : List UInt8 := Utf8.encode (l.toJson.print ++ ['\n'])

/-- Cuts bytes behind every line feed; what stands behind the last one is the rest. -/
def cut : List UInt8 → List (List UInt8) × List UInt8
  | [] => ([], [])
  | b :: rest =>
    let (lines, open_) := cut rest
    if b = 10 then ([] :: lines, open_)
    else match lines with
      | [] => ([], b :: open_)
      | first :: others => ((b :: first) :: others, open_)

def lines (f : LetterFile) : List (List UInt8) := (cut f.content).1

/-- Appends each letter to the file at a path; `outcome` says what becomes of each append. -/
def sink (path : String) (outcome : Nat → AppendOutcome) : Sink LetterFile where
  report f l :=
    match outcome f.reports with
    | .whole =>
      ⟨none, [⟨.info, "Persisted dead letter",
        [("table", l.table), ("count", Digits.text l.records.length), ("path", path)]⟩],
        ⟨f.content ++ line l, f.reports + 1⟩⟩
    | .torn written fault =>
      let part := (line l).take (min written ((line l).length - 1))
      ⟨some (.io fault), [], ⟨f.content ++ part, f.reports + 1⟩⟩

def openFault? (path : String) : Option String :=
  if path.contains '\x00' then some "file name contained an unexpected NUL byte"
  else if path = "" then some "No such file or directory (os error 2)"
  else
    let parts := path.splitOn "/"
    let isHere := fun p : String => p = "" || p = "." || p = ".."
    if !(parts.dropLast.all isHere) then some "No such file or directory (os error 2)"
    else if isHere (parts.getLast?.getD "") then some "Is a directory (os error 21)"
    else none

end LetterFile

end Intake.Bulk
