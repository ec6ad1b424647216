import Intake.Json.Fault

set_option autoImplicit false

/-!
Faults of the bulk path itself, apart from those of the store.
-/

namespace Intake.Bulk

/-- A setting that is refused, a text that is no document, or a file that cannot be written. -/
inductive Fault where
  | configuration (reason : String)
  | serialization (reason : String)
  | io (reason : String)
  deriving DecidableEq, Repr, Inhabited

namespace Fault

def message : Fault → String
  | .configuration reason => s!"configuration error: {reason}"
  | .serialization reason => s!"serialization error: {reason}"
  | .io reason => s!"IO error: {reason}"

def ofJson (fault : Json.Fault) : Fault := .serialization fault.message

end Fault

end Intake.Bulk
