set_option autoImplicit false

/-!
The marks of a document with nested elements, as far as they are needed to find the text of one
element. Reading ends where the document stops being well formed.
-/

namespace Intake.Cloud.Markup

inductive Mark where
  | opening (name : String)
  | closing
  | text (content : List Char)
  deriving DecidableEq, Repr, Inhabited

/-- What stands behind the first place of a text at which a word begins. -/
def behind? (word : List Char) : List Char → Option (List Char)
  | [] => if word.isEmpty then some [] else none
  | c :: rest =>
    if word.isPrefixOf (c :: rest) then some ((c :: rest).drop word.length) else behind? word rest

/-- The rest of a tag: whether it closes its element itself, and what stands behind it. Brackets in
quotes do not count. -/
def tagEnd? (quote : Option Char) : List Char → Option (Bool × List Char)
  | [] => none
  | c :: rest =>
    match quote with
    | some q => tagEnd? (if c = q then none else quote) rest
    | none =>
      if c = '>' then some (false, rest)
      else if c = '/' && rest.head? = some '>' then some (true, rest.tail)
      else tagEnd? (if c = '"' || c = '\'' then some c else none) rest

def endsName (c : Char) : Bool :=
  c = '>' || c = '/' || c = ' ' || c = '\t' || c = '\n' || c = '\r'

def openingTag? (text : List Char) : Option (List Mark × List Char) := do
  let name := text.takeWhile (!endsName ·)
  let (closes, rest) ← tagEnd? none (text.dropWhile (!endsName ·))
  if name.isEmpty then none
  else return (.opening (String.ofList name) :: if closes then [.closing] else [], rest)

def bracket? : List Char → Option (List Mark × List Char)
  | '?' :: rest => (behind? "?>".toList rest).map fun rest => ([], rest)
  | '!' :: '-' :: '-' :: rest => (behind? "-->".toList rest).map fun rest => ([], rest)
  | '!' :: '[' :: rest => (behind? "]]>".toList rest).map fun rest => ([], rest)
  | '!' :: rest => (behind? ">".toList rest).map fun rest => ([], rest)
  | '/' :: rest => (behind? ">".toList rest).map fun rest => ([.closing], rest)
  | rest => openingTag? rest

/-- The marks of a document; `fuel` exceeds its length. -/
def marksFrom : (fuel : Nat) → List Char → List Mark
  | 0, _ => []
  | _, [] => []
  | fuel + 1, c :: rest =>
    if c = '<' then
      match bracket? rest with
      | some (marks, rest) => marks ++ marksFrom fuel rest
      | none => []
    else
      .text ((c :: rest).takeWhile (· ≠ '<')) :: marksFrom fuel (rest.dropWhile (· ≠ '<'))

def marks (document : List Char) : List Mark := marksFrom (document.length + 1) document

/-- The text of the last element with a name among those directly inside the outermost one; `depth`
counts the open elements. There is none if that element holds another one in front of its text. -/
def innerText? (name : String) (found : Option (List Char)) : (depth : Nat) → List Mark →
    Option (List Char)
  | _, [] => found
  | depth, .opening n :: rest =>
    if depth = 1 && n = name then
      match rest with
      | .text content :: _ => innerText? name (some content) 2 rest
      | .opening _ :: _ => none
      | _ => innerText? name (some []) 2 rest
    else innerText? name found (depth + 1) rest
  | depth, .closing :: rest => if depth ≤ 1 then found else innerText? name found (depth - 1) rest
  | depth, .text _ :: rest => innerText? name found depth rest

/-- The text of an element directly inside the outermost one, which has a given name too. -/
def child? (outer name : String) (document : List Char) : Option String :=
  let marks := (marks document).dropWhile fun
    | .text content => content.all Char.isWhitespace
    | _ => false
  match marks with
  | .opening n :: rest =>
    if n = outer then (innerText? name none 1 rest).map String.ofList else none
  | _ => none

end Intake.Cloud.Markup
