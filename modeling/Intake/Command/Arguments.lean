set_option autoImplicit false

/-!
The arguments of the command line: options of the program, then a task with options of its own.
Reading goes from left to right and ends at the first request for help or for the version, and at
the first mistake.
-/

namespace Intake.Command

/-- What is to be done. A path of a hyphen stands for standard input. -/
inductive Task where
  /-- Write a batch of messages to the table of items. -/
  | bulk (event : String)
  | relational (event : String)
  | validate
  deriving DecidableEq, Repr, Inhabited

structure Invocation where
  settingsPath : Option String := none
  isVerbose : Bool := false
  logsJson : Bool := false
  task : Task
  deriving DecidableEq, Repr, Inhabited

def Invocation.eventPath? (i : Invocation) : Option String :=
  match i.task with
  | .bulk path | .relational path => some path
  | .validate => none

inductive Reading where
  | run (i : Invocation)
  | help
  | version
  | mistake
  deriving DecidableEq, Repr, Inhabited

inductive Flag where
  | config
  | verbose
  | logJson
  | event
  | help
  | version
  deriving DecidableEq, Repr, Inhabited

def Flag.takesValue : Flag → Bool
  | .config | .event => true
  | _ => false

/-- The part of the command line that is read: what stands in front of the task, or behind it. -/
inductive Scope where
  | program
  | bulk
  | relational
  | validate
  deriving DecidableEq, Repr, Inhabited

namespace Scope

def long? (scope : Scope) (name : String) : Option Flag :=
  match scope, name with
  | _, "help" => some .help
  | .program, "config" => some .config
  | .program, "verbose" => some .verbose
  | .program, "log-json" => some .logJson
  | .program, "version" => some .version
  | .bulk, "event" => some .event
  | .relational, "event" => some .event
  | _, _ => none

def short? (scope : Scope) (name : Char) : Option Flag :=
  match scope, name with
  | _, 'h' => some .help
  | .program, 'c' => some .config
  | .program, 'v' => some .verbose
  | .program, 'V' => some .version
  | _, _ => none

def ofName? : String → Option Scope
  | "bulk" => some .bulk
  | "relational" => some .relational
  | "validate" => some .validate
  | _ => none

end Scope

structure Progress where
  scope : Scope := .program
  config : Option String := none
  verbose : Bool := false
  logJson : Bool := false
  event : Option String := none
  deriving DecidableEq, Repr, Inhabited

namespace Progress

/-- Takes in an option with its value. Every option is given once at most, and no value is
empty. -/
def take (p : Progress) (flag : Flag) (value : String) : Except Reading Progress :=
  match flag with
  | .help => .error .help
  | .version => .error .version
  | .verbose => if p.verbose then .error .mistake else .ok { p with verbose := true }
  | .logJson => if p.logJson then .error .mistake else .ok { p with logJson := true }
  | .config =>
    if p.config.isSome || value.isEmpty then .error .mistake
    else .ok { p with config := some value }
  | .event =>
    if p.event.isSome || value.isEmpty then .error .mistake
    else .ok { p with event := some value }

/-- What is asked for when the arguments end here; the path of the settings may also come from a
variable. -/
def finish (fromVariable : Option String) (p : Progress) : Reading :=
  let settingsPath := p.config.orElse fun _ => fromVariable
  let event := p.event.getD "-"
  let run := fun task => .run ⟨settingsPath, p.verbose, p.logJson, task⟩
  if settingsPath = some "" then .mistake
  else match p.scope with
    | .program => .mistake
    | .bulk => run (.bulk event)
    | .relational => run (.relational event)
    | .validate => run .validate

end Progress

inductive Form where
  | long (name : String) (value : Option String)
  | short (names : List Char)
  | stop
  | plain (text : String)
  deriving DecidableEq, Repr, Inhabited

/-- The form of an argument; one hyphen alone is a plain text. -/
def Form.of (argument : String) : Form :=
  match argument.toList with
  | ['-', '-'] => .stop
  | '-' :: '-' :: rest =>
    .long (String.ofList (rest.takeWhile (· ≠ '=')))
      (match rest.dropWhile (· ≠ '=') with
        | [] => none
        | _ :: value => some (String.ofList value))
  | '-' :: c :: rest => .short (c :: rest)
  | _ => .plain argument

/-- What one argument leads to: further progress, or an option that waits for the next argument. -/
inductive Step where
  | went (p : Progress)
  | awaits (flag : Flag) (p : Progress)
  deriving DecidableEq, Repr, Inhabited

/-- Reads options with short names from one argument: what follows one that takes a value is the
value. -/
def readShort (p : Progress) : List Char → Except Reading Step
  | [] => .ok (.went p)
  | c :: rest =>
    match p.scope.short? c with
    | none => .error .mistake
    | some flag =>
      if flag.takesValue then
        match rest with
        | [] => .ok (.awaits flag p)
        | '=' :: value => (p.take flag (String.ofList value)).map .went
        | value => (p.take flag (String.ofList value)).map .went
      else do readShort (← p.take flag "") rest

def readLong (p : Progress) (name : String) (value : Option String) : Except Reading Step :=
  match p.scope.long? name, value with
  | none, _ => .error .mistake
  | some flag, none => if flag.takesValue then .ok (.awaits flag p) else (p.take flag "").map .went
  | some flag, some value =>
    if flag.takesValue then (p.take flag value).map .went else .error .mistake

def readHelp : List String → Reading
  | [] => .help
  | [name] => if name = "help" || (Scope.ofName? name).isSome then .help else .mistake
  | _ => .mistake

def readFrom (fromVariable : Option String) (p : Progress) : List String → Reading
  | [] => p.finish fromVariable
  | argument :: rest =>
    let step := match Form.of argument with
      | .long name value => readLong p name value
      | .short names => readShort p names
      | .stop => .error (if rest.isEmpty then p.finish fromVariable else .mistake)
      | .plain text =>
        if p.scope ≠ Scope.program then .error .mistake
        else if text = "help" then .error (readHelp rest)
        else match Scope.ofName? text with
          | some scope => .ok (.went { p with scope })
          | none => .error .mistake
    match step, rest with
    | .error reading, _ => reading
    | .ok (.went p), rest => readFrom fromVariable p rest
    | .ok (.awaits _ _), [] => .mistake
    | .ok (.awaits flag p), value :: rest =>
      match Form.of value with
      | .plain text =>
        match p.take flag text with
        | .error reading => reading
        | .ok p => readFrom fromVariable p rest
      | _ => .mistake

def settingsVariable : String := "LEDGERFLOW_CONFIG"

def read (environment : String → Option String) (arguments : List String) : Reading :=
  readFrom (environment settingsVariable) {} arguments

end Intake.Command
