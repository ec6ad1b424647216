import Intake.Sql.Postgres.Client

set_option autoImplicit false

/-!
Lines to one server, of which one is the current session and one runs the current transaction. A
transaction stays with the line on which it was begun.
-/

namespace Intake.Sql.Postgres

structure Handles (σ : Type) where
  server : σ
  lines : List Bool := []
  session : Option Nat := none
  transaction : Option Nat := none
  deriving Inhabited

namespace Handles

variable {σ : Type}

inductive Step where
  | connect (config : ConnectionConfig)
  | begin
  | execute (statement : String) (params : List Value)
  | stage (statement : String) (params : List Value)
  | commit
  | rollback
  | close
  | isValid
  deriving Inhabited

def use {α : Type} (h : Handles σ) (line : Nat) (action : Client σ → α × Client σ) :
    α × Handles σ :=
  let (result, c) := action ⟨h.server, h.lines.getD line false⟩
  (result, { h with server := c.server, lines := h.lines.set line c.isOpen })

def on (h : Handles σ) (line : Option Nat) (step : Nat → StepResult × Handles σ) :
    StepResult × Handles σ :=
  match line with
  | some n => step n
  | none => (.unknown, h)

def changed : Except Fault Nat → StepResult
  | .ok rows => .affected rows
  | .error fault => .refused fault

def finish (h : Handles σ) (server : Server σ) (statement : String) : StepResult × Handles σ :=
  h.on h.transaction fun line =>
    let (fault, h) := h.use line (Client.control server statement)
    (.ofFault .done fault, { h with transaction := none })

def perform (server : Server σ) (h : Handles σ) : Step → StepResult × Handles σ
  | .connect config =>
    match Client.connect server config ⟨h.server, false⟩ with
    | (some fault, c) => (.refused fault, { h with server := c.server })
    | (none, c) =>
      (.done, { h with
        server := c.server
        lines := h.lines ++ [c.isOpen]
        session := some h.lines.length })
  | .begin =>
    h.on h.session fun line =>
      match h.use line (Client.control server "BEGIN") with
      | (some fault, h) => (.refused fault, h)
      | (none, h) => (.done, { h with transaction := some line })
  | .execute statement params =>
    h.on h.session fun line =>
      let (rows, h) := h.use line (Client.execute server statement params)
      (changed rows, h)
  | .stage statement params =>
    h.on h.transaction fun line =>
      let (rows, h) := h.use line (Client.execute server statement params)
      (changed rows, h)
  | .commit => h.finish server "COMMIT"
  | .rollback => h.finish server "ROLLBACK"
  | .close => h.on h.session fun line => (.done, (h.use line fun c => ((), c.close)).2)
  | .isValid =>
    h.on h.session fun line =>
      let (usable, h) := h.use line (Client.isValid server)
      (.validity usable, h)

end Handles

end Intake.Sql.Postgres
