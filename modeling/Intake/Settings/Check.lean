import Intake.Settings.Basic
import Intake.Settings.Placeholder
import Intake.Text.Blank
import Intake.Yaml.Document

set_option autoImplicit false

/-!
Reading settings and checking them: first every setting against bounds of its own, then those that
depend on each other.
-/

namespace Intake.Settings

open Intake.Text Intake.Json

inductive Rule where
  | length
  | range
  deriving DecidableEq, Repr, Inhabited

def Rule.text : Rule → String
  | .length => "length"
  | .range => "range"

/-- A setting out of its bounds. -/
structure Violation where
  path : String
  rule : Rule
  deriving DecidableEq, Repr, Inhabited

/-- The violation of a text that must have a number of characters between bounds. -/
def lengthOf (path text : String) (least : Nat) (most : Option Nat) : Option Violation :=
  if text.length < least || most.any (· < text.length) then some ⟨path, .length⟩ else none

def rangeOf (path : String) (n least : Nat) (most : Option Nat) : Option Violation :=
  if n < least || most.any (· < n) then some ⟨path, .range⟩ else none

/-- The violation of a factor between one and ten; an undefined number is neither below nor
above. -/
def factorOf (path : String) (x : Float) : Option Violation :=
  if x < 1.0 || 10.0 < x then some ⟨path, .range⟩ else none

/-- The settings that are out of their bounds, in ascending order of their paths. -/
def violations (s : Settings) : List Violation :=
  let retry := s.bulk.retry
  [lengthOf "aws.region" s.aws.region 1 none,
    rangeOf "bulk.batch_size" s.bulk.batchSize 1 (some 25),
    factorOf "bulk.retry.backoff_multiplier" retry.multiplier,
    rangeOf "bulk.retry.initial_backoff_ms" retry.initialMilliseconds 1 (some 60000),
    rangeOf "bulk.retry.max_backoff_ms" retry.maxMilliseconds 1 (some 300000),
    rangeOf "bulk.retry.max_retries" retry.maxRetries.toNat 1 (some 20),
    lengthOf "bulk.table" s.bulk.table 3 (some 255),
    rangeOf "relational.connect_timeout_ms" s.relational.timeoutMilliseconds 100 (some 300000),
    lengthOf "relational.database" s.relational.database 1 (some 63),
    rangeOf "relational.port" s.relational.port 1 none].filterMap id

inductive SettingsFault where
  | unreadable (reason : String)
  | malformed
  | outOfBounds (violations : List Violation)
  | table (fault : Sql.IdentifierFault)
  | emptyLetterPath
  | ceilingBelowStart
  deriving Inhabited

def SettingsFault.message : SettingsFault → String
  | .unreadable reason => s!"Failed to read config file: {reason}"
  | .malformed => "Failed to parse config: not a configuration"
  | .outOfBounds violations =>
    let one := fun v : Violation => s!"{v.path}: Validation error: {v.rule.text}"
    "Invalid configuration: " ++ "\n".intercalate (violations.map one)
  | .table fault => s!"relational.table: {fault.toFault.message}"
  | .emptyLetterPath => "bulk.dead_letter.path must not be empty"
  | .ceilingBelowStart => "bulk.retry.max_backoff_ms must be >= initial_backoff_ms"

def check (s : Settings) : Except SettingsFault Unit :=
  if !s.violations.isEmpty then .error (.outOfBounds s.violations)
  else
    match Sql.checkIdentifier s.relational.table with
    | .error fault => .error (.table fault)
    | .ok () =>
      if s.bulk.letters = .file "" then .error .emptyLetterPath
      else if s.bulk.retry.maxMilliseconds < s.bulk.retry.initialMilliseconds then
        .error .ceilingBelowStart
      else .ok ()

def checked (s : Settings) : Except SettingsFault Settings := s.check.map fun _ => s

/-- Reads settings after putting values in the place of placeholders; a blank text leaves all
settings at their defaults. -/
def ofText (environment : String → Option String) (text : List Char) :
    Except SettingsFault Settings :=
  let text := expand environment text
  if (Blank.trim text).isEmpty then checked {}
  else
    match (Yaml.Node.ofText? text).bind decoder.ofNode with
    | some settings => settings.checked
    | none => .error .malformed

/-- The text that the bytes of a file are, or why there is none. -/
def fileText (content : Except String (List UInt8)) : Except String (List Char) :=
  content.bind fun bytes =>
    (Utf8.decode bytes).mapError fun _ => "stream did not contain valid UTF-8"

/-- Reads settings from the content of a file, or from the reason why it cannot be read. -/
def ofFile (environment : String → Option String) (content : Except String (List UInt8)) :
    Except SettingsFault Settings :=
  match fileText content with
  | .error reason => .error (.unreadable reason)
  | .ok text => ofText environment text

end Intake.Settings
