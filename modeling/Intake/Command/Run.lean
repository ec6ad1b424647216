import Intake.Bulk.Pipeline
import Intake.Command.Arguments
import Intake.Command.Network
import Intake.Relational.Pipeline
import Intake.Settings.Check

set_option autoImplicit false

/-!
What an invocation of the program comes to. Standard output carries the answer to the event, and a
failure is reported with its cause.
-/

namespace Intake.Command

open Intake.Bulk Intake.Cloud Intake.Relational Intake.Settings Intake.Stream
open Intake.Text Intake.Time

structure Outcome where
  exitCode : Nat := 0
  output : String := ""
  report : String := ""
  log : List LogEvent := []
  appended : List (String × List UInt8) := []
  deriving DecidableEq, Repr, Inhabited

def versionText : String := "ledgerflow 0.3.0\n"

def helpLines : List String :=
  ["Ledger ingestion pipelines",
    "",
    "Usage: ledgerflow [OPTIONS] <COMMAND>",
    "",
    "Commands:",
    "  bulk        Write a stream batch to the key-value table",
    "  relational  Load a transactions file into the relational table",
    "  validate    Validate configuration file",
    "  help        Print this message or the help of the given subcommand(s)",
    "",
    "Options:",
    "  -c, --config <CONFIG>  Path to configuration file (defaults apply when omitted)",
    "  -v, --verbose          Enable verbose logging",
    "      --log-json         Emit logs as JSON lines",
    "  -h, --help             Print help",
    "  -V, --version          Print version"]

def helpText : String := String.join (helpLines.map fun line => line ++ "\n")

namespace Outcome

def indented (cause : String) : String :=
  String.ofList (cause.toList.flatMap fun c => if c = '\n' then "\n    ".toList else [c])

def failed (message : String) (cause : Option String := none) : Outcome where
  exitCode := 1
  report := match cause with
    | none => s!"Error: {message}\n"
    | some cause => s!"Error: {message}\n\nCaused by:\n    {indented cause}\n"

def answered (exitCode : Nat) (answer : Json) : Outcome :=
  { exitCode, output := answer.text ++ "\n" }

def misused : Outcome := { exitCode := 2, report := helpText }

def aborted : Outcome := { exitCode := 101 }

end Outcome

structure Surroundings where
  file : String → Except String (List UInt8)
  input : Except String (List UInt8)
  environment : String → Option String
  now : Instant

/-- A path that stands for standard input; a slash and dots behind it make no difference. -/
def isInput (path : String) : Bool :=
  match path.splitOn "/" with
  | first :: rest => first = "-" && rest.all fun part => part = "" || part = "."
  | [] => false

def eventText (s : Surroundings) (path : String) : Except Outcome String :=
  if isInput path then
    match fileText s.input with
    | .ok text => .ok (String.ofList text)
    | .error reason => .error (.failed "Failed to read event from stdin" reason)
  else
    match fileText (s.file path) with
    | .ok text => .ok (String.ofList text)
    | .error reason =>
      .error (.failed s!"Failed to read event file {Quoted.path path}" reason)

def event {α : Type} (decoder : Decoder α) (expectation : String) (s : Surroundings)
    (path : String) : Except Outcome α := do
  match decoder.parse (← eventText s path) with
  | .ok event => .ok event
  | .error fault => .error (.failed s!"Invalid {expectation}" fault.message)

def settingsAt (s : Surroundings) : Option String → Except Outcome Settings
  | none => .ok {}
  | some path =>
    match Settings.ofFile s.environment (s.file path) with
    | .ok settings => .ok settings
    | .error fault =>
      .error (.failed s!"Failed to load config from {Quoted.path path}" fault.message)

def siteOf (settings : Settings) : Site := ⟨some settings.aws.region, settings.aws.endpoint⟩

/-- The sink of dead letters, and the path of its file if it is one. -/
def letterSink (settings : Settings) : Sink LetterFile × Option String :=
  match settings.bulk.letters with
  | .file path => (LetterFile.sink path fun _ => .whole, some path)
  | .log => (.log, none)

def runBulk {σ : Type} (network : Network σ) (state : σ) (settings : Settings) (now : Instant)
    (batch : Batch) : Outcome :=
  match Chunker.ofLimit settings.bulk.batchSize with
  | .error fault => .failed fault.toFault.message
  | .ok chunker =>
    let (letters, path) := letterSink settings
    let writer : Writer σ LetterFile LetterFile :=
      ⟨network.tables (siteOf settings), letters, .log, settings.bulk.retry.policy, chunker, now⟩
    match writer.handle settings.bulk.table now.unixText batch ⟨state, .empty, .empty⟩ with
    | none => .aborted
    | some run =>
      { Outcome.answered 0 run.value.toJson with
        log := Bulk.Effect.log run.effects
        appended := (path.map fun path => (path, run.places.primary.content)).toList.filter
          fun entry => !entry.2.isEmpty }

/-- Loads the file that a notification names into the table of rows; the answer to a success is
null. -/
def runRelational {σ : Type} (network : Network σ) (state : σ) (settings : Settings)
    (notification : ObjectFile.Notification) : Outcome :=
  let relational := settings.relational
  if relational.secretId.isEmpty then .failed "relational.secret_id is not configured"
  else
    match RowWriter.ofTable network.database relational.table with
    | .error fault => .failed fault.message
    | .ok writer =>
      let target : Target := {
        secretId := relational.secretId
        database := relational.database
        port := relational.port
        timeoutMilliseconds := relational.timeoutMilliseconds }
      let pipeline : Pipeline σ := ⟨network.sources (siteOf settings), writer, target⟩
      let run := pipeline.handle notification state
      { Outcome.answered (if run.value.isSome then 1 else 0) (.option (·.toJson) run.value) with
        log := Relational.Effect.log run.effects }

def settingsLog (s : Settings) : List LogEvent :=
  [⟨.info, "Configuration is valid",
    [("region", s.aws.region), ("bulk_table", s.bulk.table),
      ("batch_size", Digits.text s.bulk.batchSize), ("relational_table", s.relational.table),
      ("database", s.relational.database)]⟩]
  ++ if s.relational.secretId.isEmpty then
      [⟨.info, "relational.secret_id is empty; the relational command will refuse to run", []⟩]
    else []

def carryOut {σ : Type} (network : Network σ) (state : σ) (s : Surroundings) (i : Invocation) :
    Except Outcome Outcome := do
  let settings ← settingsAt s i.settingsPath
  match i.task with
  | .bulk path =>
    return runBulk network state settings s.now (← event Batch.decoder "stream batch" s path)
  | .relational path =>
    return runRelational network state settings
      (← event ObjectFile.Notification.decoder "object notification" s path)
  | .validate => return { log := settingsLog settings }

def run {σ : Type} (network : Network σ) (state : σ) (s : Surroundings) (arguments : List String) :
    Outcome :=
  match read s.environment arguments with
  | .help => { output := helpText }
  | .version => { output := versionText }
  | .mistake => .misused
  | .run invocation =>
    match carryOut network state s invocation with
    | .ok outcome => outcome
    | .error outcome => outcome

end Intake.Command
