import Intake.Text.Digits
import Intake.Yaml.Cursor

set_option autoImplicit false

/-!
The text of a scalar as it is written: between quotes, plain, or as a block of lines.
-/

namespace Intake.Yaml.Content

open Intake.Text

/-- Puts the text of a gap behind a text that is kept back to front. -/
def join (reversed : List Char) (gap : Gap) : List Char := gap.text.reverse ++ reversed

/-- Reads up to the end of a text in single quotes; a quote inside is written twice. -/
def single (reversed : List Char) (gap : Gap) (at_ : Cursor) :
    List Char → Option (List Char × Cursor)
  | [] => none
  | '\r' :: '\n' :: rest => single reversed (gap.line '\n') (at_.nextLine 2 rest) rest
  | '\'' :: '\'' :: rest =>
    single ('\'' :: join reversed gap) {} (at_.ahead 2 rest) rest
  | c :: rest =>
    if isBlank c then single reversed (gap.blank c) (at_.ahead 1 rest) rest
    else if isBreak c then single reversed (gap.line (breakText c)) (at_.nextLine 1 rest) rest
    else if at_.isMarker then none
    else if c = '\'' then some ((join reversed gap).reverse, at_.ahead 1 rest)
    else single (c :: join reversed gap) {} (at_.ahead 1 rest) rest

def shortEscape : Char → Option Char
  | '0' => some '\x00'
  | 'a' => some '\x07'
  | 'b' => some '\x08'
  | 't' => some '\t'
  | '\t' => some '\t'
  | 'n' => some '\n'
  | 'v' => some '\x0b'
  | 'f' => some '\x0c'
  | 'r' => some '\r'
  | 'e' => some '\x1b'
  | ' ' => some ' '
  | '"' => some '"'
  | '/' => some '/'
  | '\\' => some '\\'
  | 'N' => some '\x85'
  | '_' => some '\u00a0'
  | 'L' => some '\u2028'
  | 'P' => some '\u2029'
  | _ => none

def numbered (digits : List Char) : Option Char := do
  let n ← digits.foldlM (fun n c => do return 16 * n + (← Digits.hexValue? c)) 0
  if (0xD800 ≤ n && n ≤ 0xDFFF) || 0x10FFFF < n then none else some (Char.ofNat n)

def double (reversed : List Char) (gap : Gap) (at_ : Cursor) :
    List Char → Option (List Char × Cursor)
  | [] => none
  | '\r' :: '\n' :: rest => double reversed (gap.line '\n') (at_.nextLine 2 rest) rest
  | '\\' :: '\r' :: '\n' :: rest =>
    double (join reversed gap) .hidden (at_.nextLine 3 rest) rest
  | '\\' :: 'x' :: a :: b :: rest => do
    let c ← numbered [a, b]
    double (c :: join reversed gap) {} (at_.ahead 4 rest) rest
  | '\\' :: 'u' :: a :: b :: c :: d :: rest => do
    let c ← numbered [a, b, c, d]
    double (c :: join reversed gap) {} (at_.ahead 6 rest) rest
  | '\\' :: 'U' :: a :: b :: c :: d :: e :: f :: g :: h :: rest => do
    let c ← numbered [a, b, c, d, e, f, g, h]
    double (c :: join reversed gap) {} (at_.ahead 10 rest) rest
  | '\\' :: c :: rest =>
    if isBreak c then double (join reversed gap) .hidden (at_.nextLine 2 rest) rest
    else
      match shortEscape c with
      | some c => double (c :: join reversed gap) {} (at_.ahead 2 rest) rest
      | none => none
  | c :: rest =>
    if isBlank c then double reversed (gap.blank c) (at_.ahead 1 rest) rest
    else if isBreak c then double reversed (gap.line (breakText c)) (at_.nextLine 1 rest) rest
    else if at_.isMarker then none
    else if c = '"' then some ((join reversed gap).reverse, at_.ahead 1 rest)
    else double (c :: join reversed gap) {} (at_.ahead 1 rest) rest

/-- Characters that end a plain text between brackets. -/
def isFlowMark (c : Char) : Bool := c = ',' || c = '[' || c = ']' || c = '\x7b' || c = '\x7d'

/-- A plain text, whether lines end behind it, and the place behind it and its white space. -/
structure Plain where
  text : List Char
  broken : Bool
  after : Cursor

/-- Reads a plain text; `indent` is the least column of its further lines, `fresh` says that white
space or nothing stands in front. -/
def plain (inFlow : Bool) (indent : Nat) (reversed : List Char) (gap : Gap) (fresh : Bool)
    (at_ : Cursor) : List Char → Option Plain
  | [] => some ⟨reversed.reverse, gap.broken, at_⟩
  | '\r' :: '\n' :: rest =>
    plain inFlow indent reversed (gap.line '\n') true (at_.nextLine 2 rest) rest
  | c :: rest =>
    if isBlank c then
      if gap.broken && at_.column < indent && c = '\t' then none
      else plain inFlow indent reversed (gap.blank c) true (at_.ahead 1 rest) rest
    else if isBreak c then
      plain inFlow indent reversed (gap.line (breakText c)) true (at_.nextLine 1 rest) rest
    else
      let outdented := !inFlow && at_.column < indent && !reversed.isEmpty
      let stopped :=
        fresh && (outdented || at_.isMarker || c = '#')
      let ended := (c = ':' && endsWord rest) || (inFlow && isFlowMark c)
      if stopped then some ⟨reversed.reverse, gap.broken, at_⟩
      else if inFlow && c = ':' && startsWith (fun d => isFlowMark d || d = '?') rest then none
      else if ended then some ⟨reversed.reverse, gap.broken, at_⟩
      else plain inFlow indent (c :: join reversed gap) {} false (at_.ahead 1 rest) rest

inductive Chomping where
  | strip
  | clip
  | keep
  deriving DecidableEq, Repr, Inhabited

def Chomping.ofSign? : Char → Option Chomping
  | '+' => some .keep
  | '-' => some .strip
  | _ => none

/-- The signs behind the mark of a block: chomping and indentation, in either order. -/
def header? (at_ : Cursor) : Option (Chomping × Option Nat × Cursor) :=
  let sign := fun at_ : Cursor =>
    match at_.rest with
    | c :: rest =>
      match Chomping.ofSign? c with
      | some chomping => (chomping, at_.ahead 1 rest)
      | none => (.clip, at_)
    | [] => (.clip, at_)
  let digit := fun at_ : Cursor =>
    match at_.rest with
    | c :: rest =>
      if c = '0' then none
      else if Digits.isDigit c then some (some (c.toNat - '0'.toNat), at_.ahead 1 rest)
      else some (none, at_)
    | [] => some (none, at_)
  if startsWith (Chomping.ofSign? · |>.isSome) at_.rest then do
    let (chomping, at_) := sign at_
    let (width, at_) ← digit at_
    return (chomping, width, at_)
  else do
    let (width, at_) ← digit at_
    let (chomping, at_) := if width.isSome then sign at_ else (.clip, at_)
    return (chomping, width, at_)

/-- Empty lines of a block: the widest indentation found, the line breaks, and the place behind. No
indentation is known yet if `indent` is zero. -/
def emptyLines (indent found : Nat) (reversed : List Char) (at_ : Cursor) :
    List Char → Option (Nat × List Char × Cursor)
  | [] => some (max found at_.column, reversed.reverse, at_)
  | '\r' :: '\n' :: rest =>
    emptyLines indent (max found at_.column) ('\n' :: reversed) (at_.nextLine 2 rest) rest
  | c :: rest =>
    let inside := indent = 0 || at_.column < indent
    if inside && c = ' ' then emptyLines indent found reversed (at_.ahead 1 rest) rest
    else if inside && c = '\t' then none
    else if isBreak c then
      emptyLines indent (max found at_.column) (breakText c :: reversed) (at_.nextLine 1 rest) rest
    else some (max found at_.column, reversed.reverse, at_)

/-- A block while it is read: its text so far, the break behind its last line and the breaks of
empty lines behind that. -/
structure Block where
  text : List Char := []
  lastBreak : List Char := []
  emptyBreaks : List Char := []
  indented : Bool := false
  deriving Inhabited

/-- The breaks in front of the next line. Where lines are folded, one break between two lines that
start with no blank counts as a space. -/
def Block.between (b : Block) (literal indented : Bool) : List Char :=
  if !literal && b.lastBreak.head? = some '\n' && !b.indented && !indented then
    (if b.emptyBreaks.isEmpty then [' '] else []) ++ b.emptyBreaks
  else b.lastBreak ++ b.emptyBreaks

/-- Reads the lines of a block; `fuel` exceeds the length of the text. -/
def lines (literal : Bool) (indent : Nat) :
    (fuel : Nat) → Block → Cursor → Option (Block × Cursor)
  | 0, b, at_ => some (b, at_)
  | fuel + 1, b, at_ =>
    if at_.column ≠ indent || at_.rest.isEmpty then some (b, at_)
    else do
      let indented := startsWith isBlank at_.rest
      let (line, at_) := at_.takeWhile (!isBreak ·)
      let (lastBreak, at_) := at_.lineBreak
      let (_, emptyBreaks, at_) ← emptyLines indent 0 [] at_ at_.rest
      lines literal indent fuel
        ⟨b.text ++ b.between literal indented ++ line, lastBreak, emptyBreaks, indented⟩ at_

/-- Reads a block behind its mark; `outer` is the indentation around it, if there is one. -/
def block (literal : Bool) (outer : Option Nat) (at_ : Cursor) : Option (List Char × Cursor) := do
  let (chomping, width, at_) ← header? at_
  let at_ ← at_.endLine?
  let known := match width, outer with
    | some w, some o => o + w
    | some w, none => w
    | none, _ => 0
  let (found, emptyBreaks, at_) ← emptyLines known 0 [] at_ at_.rest
  let least := match outer with
    | some o => o + 1
    | none => 1
  let indent := if known = 0 then max found least else known
  let (b, at_) ← lines literal indent (at_.rest.length + 1) { emptyBreaks } at_
  let text := match chomping with
    | .strip => b.text
    | .clip => b.text ++ b.lastBreak
    | .keep => b.text ++ b.lastBreak ++ b.emptyBreaks
  return (text, at_)

end Intake.Yaml.Content
