import Intake.Text.Quoted

set_option autoImplicit false

/-!
Log events: what a run reports about itself, with named texts.
-/

namespace Intake

inductive LogLevel where
  | debug
  | info
  | warn
  | error
  deriving DecidableEq, Repr, Inhabited

def LogLevel.text : LogLevel → String
  | .debug => "DEBUG"
  | .info => "INFO"
  | .warn => "WARN"
  | .error => "ERROR"

structure LogEvent where
  level : LogLevel
  message : String
  fields : List (String × String)
  deriving DecidableEq, Repr, Inhabited

end Intake
