import Intake.Sql.Fault
import Intake.Text.Digits

set_option autoImplicit false

/-!
Names of tables and columns, and the statement that inserts one row. A name that is accepted needs
no escape between double quotes.
-/

namespace Intake.Sql

open Intake.Text

inductive IdentifierFault where
  | empty
  | tooLong (bytes : Nat)
  | badStart (name : String)
  | badCharacter (name : String) (c : Char)
  | noColumns
  deriving DecidableEq, Repr, Inhabited

/-- The longest name in bytes. -/
def maxIdentifierLength : Nat := 63

def IdentifierFault.message : IdentifierFault → String
  | .empty => "SQL identifier cannot be empty"
  | .tooLong bytes => s!"SQL identifier too long: {bytes} chars (max {maxIdentifierLength})"
  | .badStart name => s!"Invalid SQL identifier '{name}': must start with a letter or underscore"
  | .badCharacter name c => s!"Invalid SQL identifier '{name}': contains invalid character '{c}'"
  | .noColumns => "INSERT requires at least one column"

def IdentifierFault.toFault (f : IdentifierFault) : Fault := .configuration f.message

def isNameStart (c : Char) : Bool :=
  ('a' ≤ c && c ≤ 'z') || ('A' ≤ c && c ≤ 'Z') || c = '_'

def isNameChar (c : Char) : Bool := isNameStart c || Digits.isDigit c

/-- Accepts a name of up to 63 ASCII letters, digits and underscores that starts with no digit. -/
def checkIdentifier (name : String) : Except IdentifierFault Unit :=
  match name.toList with
  | [] => .error .empty
  | c :: rest =>
    if maxIdentifierLength < name.utf8ByteSize then .error (.tooLong name.utf8ByteSize)
    else if !isNameStart c then .error (.badStart name)
    else match rest.find? (!isNameChar ·) with
      | some bad => .error (.badCharacter name bad)
      | none => .ok ()

def quoteIdentifier (name : String) : String := "\"" ++ name ++ "\""

def placeholder (n : Nat) : String := "$" ++ Digits.text n

/-- The statement that inserts one row into a table, a placeholder for each column. -/
def insertStatement (table : String) (columns : List String) : Except IdentifierFault String := do
  checkIdentifier table
  if columns.isEmpty then .error .noColumns
  else
    columns.forM checkIdentifier
    let names := ", ".intercalate (columns.map quoteIdentifier)
    let placeholders := ", ".intercalate ((List.range columns.length).map (placeholder <| · + 1))
    return s!"INSERT INTO {quoteIdentifier table} ({names}) VALUES ({placeholders})"

end Intake.Sql
