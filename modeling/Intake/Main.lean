import Intake.Command.Run
import Std.Time.DateTime.Timestamp

set_option autoImplicit false

/-!
The program: reads what an invocation needs, lets the library decide what comes of it, and prints
that. No service is reached from here, so that every request over the network is lost.
-/

namespace Intake.Command

open Intake.Settings Intake.Text Intake.Time

def reasonOf : IO.Error → String
  | .noFileOrDirectory .. => "No such file or directory (os error 2)"
  | .permissionDenied .. => "Permission denied (os error 13)"
  | .inappropriateType .. => "Is a directory (os error 21)"
  | fault => toString fault

def attempt (action : IO ByteArray) : BaseIO (Except String (List UInt8)) := do
  match ← action.toBaseIO with
  | .ok bytes => return .ok bytes.toList
  | .error fault => return .error (reasonOf fault)

def contentOf (path : String) : BaseIO (Except String (List UInt8)) :=
  attempt (IO.FS.readBinFile path)

def valuesIn (content : Except String (List UInt8)) : BaseIO (List (String × String)) := do
  let names := match fileText content with
    | .ok text => variableNames text
    | .error _ => []
  names.filterMapM fun name => return (← IO.getEnv name).map fun value => (name, value)

def clock : IO Instant := do
  let nanos : Int := (← Std.Time.Timestamp.now).toNanosecondsSinceUnixEpoch.val
  return ⟨nanos / 1000000000, (nanos % 1000000000).toNat⟩

/-- What an invocation can see: the file of the settings, the event, and the variables that the
settings refer to. The event is read only if the settings can be used. -/
def surroundingsOf (i : Invocation) : IO Surroundings := do
  let unread := .error (reasonOf (.noFileOrDirectory "" 2 ""))
  let settings ← match i.settingsPath with
    | some path => contentOf path
    | none => pure unread
  let values ← valuesIn settings
  let start : Surroundings :=
    ⟨fun path => if some path = i.settingsPath then settings else unread, unread,
      fun name => List.lookup name values, ← clock⟩
  match settingsAt start i.settingsPath, i.eventPath? with
  | .ok _, some path =>
    if isInput path then return { start with input := ← attempt (← IO.getStdin).readBinToEnd }
    else
      let content ← contentOf path
      return { start with file := fun p => if p = path then content else start.file p }
  | _, _ => return start

def lineOf (e : LogEvent) : String :=
  " ".intercalate (e.level.text :: e.message :: e.fields.map fun f => s!"{f.1}={f.2}")

def documentOf (e : LogEvent) : Json :=
  .object [("level", .string e.level.text), ("message", .string e.message),
    ("fields", .object (e.fields.map fun f => (f.1, .string f.2)))]

def deliver (isVerbose logsJson : Bool) (o : Outcome) : IO UInt32 := do
  for e in o.log do
    if isVerbose || e.level ≠ .debug then
      IO.eprintln (if logsJson then (documentOf e).text else lineOf e)
  for (path, bytes) in o.appended do
    IO.FS.withFile path .append fun file => file.write ⟨bytes.toArray⟩
  IO.eprint o.report
  IO.print o.output
  return o.exitCode.toUInt32

end Intake.Command

open Intake Intake.Command in
def main (arguments : List String) : IO UInt32 := do
  let path ← IO.getEnv settingsVariable
  let environment := fun name => if name = settingsVariable then path else none
  match read environment arguments with
  | .run i =>
    let outcome := match carryOut Network.down () (← surroundingsOf i) i with
      | .ok outcome => outcome
      | .error outcome => outcome
    deliver i.isVerbose i.logsJson outcome
  | .help => deliver false false { output := helpText }
  | .version => deliver false false { output := versionText }
  | .mistake => deliver false false .misused
