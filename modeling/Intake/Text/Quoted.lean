import Intake.Text.CharClass
import Intake.Text.Digits

set_option autoImplicit false

/-!
Texts and records as diagnostics show them: a text stands between double quotes with everything
that could not be seen escaped, a record is its name and its fields between braces.
-/

namespace Intake.Text.Quoted

def escapeChar (c : Char) : List Char :=
  if c = '\x00' then ['\\', '0']
  else if c = '\t' then ['\\', 't']
  else if c = '\r' then ['\\', 'r']
  else if c = '\n' then ['\\', 'n']
  else if c = '"' then ['\\', '"']
  else if c = '\\' then ['\\', '\\']
  else if CharClass.isExtending c || !CharClass.isVisible c then
    '\\' :: 'u' :: '\x7b' :: (Digits.hexadecimal c.toNat ++ ['\x7d'])
  else [c]

def quote (text : String) : String :=
  String.ofList ('"' :: (text.toList.flatMap escapeChar ++ ['"']))

def path (text : String) : String :=
  String.ofList ('"' :: ((text.toList.flatMap fun c =>
    if c = '\'' then ['\\', c] else escapeChar c) ++ ['"']))

def option {α : Type} (shown : α → String) : Option α → String
  | none => "None"
  | some a => "Some(" ++ shown a ++ ")"

def list {α : Type} (shown : α → String) (items : List α) : String :=
  "[" ++ ", ".intercalate (items.map shown) ++ "]"

def dictionary (entries : List (String × String)) : String :=
  "\x7b" ++ ", ".intercalate (entries.map fun entry => quote entry.1 ++ ": " ++ quote entry.2)
    ++ "\x7d"

def record (name : String) (fields : List (String × String)) : String :=
  name ++ " \x7b " ++ ", ".intercalate (fields.map fun field => field.1 ++ ": " ++ field.2)
    ++ " \x7d"

end Intake.Text.Quoted
