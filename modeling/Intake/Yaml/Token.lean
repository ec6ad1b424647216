import Intake.Yaml.Node
import Intake.Yaml.Property

set_option autoImplicit false

/-!
The tokens of a YAML text. Indentation becomes tokens that open and close blocks. What turns out to
be a key, once the colon behind it is read, gets its mark put in front of it.
-/

namespace Intake.Yaml

inductive Token where
  | directive (d : Directive)
  | documentStart
  | documentEnd
  | blockSequenceStart
  | blockMappingStart
  | blockEnd
  | flowSequenceStart
  | flowSequenceEnd
  | flowMappingStart
  | flowMappingEnd
  | blockEntry
  | flowEntry
  | key
  | value
  | anchor (name : String)
  | alias (name : String)
  | tag (t : TagText)
  | scalar (style : Style) (text : String)
  deriving DecidableEq, Repr, Inhabited

structure KeyStart where
  /-- The number of tokens in front of it. -/
  tokens : Nat
  at_ : Cursor
  required : Bool
  deriving Inhabited

structure Lexer where
  at_ : Cursor
  tokens : Array Token := #[]
  /-- The columns of the open blocks, the innermost first. -/
  blocks : List Nat := []
  keyAllowed : Bool := true
  /-- The key that may have begun outside all brackets. -/
  outerKey : Option KeyStart := none
  /-- The keys that may have begun in the open brackets, the innermost first. -/
  flowKeys : List (Option KeyStart) := []
  deriving Inhabited

namespace Lexer

def inFlow (s : Lexer) : Bool := !s.flowKeys.isEmpty

def keyStart? (s : Lexer) : Option KeyStart :=
  match s.flowKeys with
  | k :: _ => k
  | [] => s.outerKey

def withKey (s : Lexer) (k : Option KeyStart) : Lexer :=
  match s.flowKeys with
  | _ :: others => { s with flowKeys := k :: others }
  | [] => { s with outerKey := k }

def push (s : Lexer) (t : Token) : Lexer := { s with tokens := s.tokens.push t }

def emit (s : Lexer) (t : Token) (at_ : Cursor) : Lexer := { s.push t with at_ }

/-- No key has begun any more; one that had to is missing its colon. -/
def dropKey? (s : Lexer) : Option Lexer :=
  if s.keyStart?.any (·.required) then none else some (s.withKey none)

def saveKey? (s : Lexer) : Option Lexer :=
  if !s.keyAllowed then some s
  else do
    let s ← s.dropKey?
    let required := !s.inFlow && s.blocks.head? = some s.at_.column
    return s.withKey (some ⟨s.tokens.size, s.at_, required⟩)

/-- A key stands on one line and has at most a thousand and twenty-four characters. -/
def isStale (here : Cursor) (k : KeyStart) : Bool :=
  k.at_.line < here.line || k.at_.index + 1024 < here.index

def dropStale? (s : Lexer) : Option Lexer :=
  let fresh := fun k : KeyStart => !isStale s.at_ k
  if s.outerKey.any fun k => k.required && isStale s.at_ k then none
  else some { s with
    outerKey := s.outerKey.filter fresh
    flowKeys := s.flowKeys.map (·.filter fresh) }

def closeBlocks (s : Lexer) (column : Option Nat) : Lexer :=
  if s.inFlow then s
  else
    let isInner := fun b => column.all (· < b)
    let closed := s.blocks.takeWhile isInner
    { s with
      tokens := s.tokens ++ (closed.map fun _ => Token.blockEnd).toArray
      blocks := s.blocks.dropWhile isInner }

/-- Opens a block at a column, unless one is open there; its token goes to a place among the
tokens. -/
def openBlock (s : Lexer) (column place : Nat) (t : Token) : Lexer :=
  if s.inFlow || s.blocks.head?.any (column ≤ ·) then s
  else
    let tokens := s.tokens.toList
    { s with
      blocks := column :: s.blocks
      tokens := (tokens.take place ++ t :: tokens.drop place).toArray }

/-- Opens a block here for an entry or a key, which must be allowed. -/
def openHere? (s : Lexer) (t : Token) : Option Lexer :=
  if s.inFlow then some s
  else if !s.keyAllowed then none
  else some (s.openBlock s.at_.column s.tokens.size t)

/-- Passes over white space and comments; `fuel` exceeds the length of the text. -/
def skipSpace : (fuel : Nat) → Lexer → Lexer
  | 0, s => s
  | fuel + 1, s =>
    let at_ := match s.at_.rest with
      | c :: rest => if s.at_.column = 0 && c = '\ufeff' then s.at_.ahead 1 rest else s.at_
      | [] => s.at_
    let at_ := at_.dropWhile fun c => c = ' ' || ((s.inFlow || !s.keyAllowed) && c = '\t')
    let at_ := if startsWith (· = '#') at_.rest then at_.dropWhile (!isBreak ·) else at_
    if startsWith isBreak at_.rest then
      skipSpace fuel { s with at_ := at_.lineBreak.2, keyAllowed := s.keyAllowed || !s.inFlow }
    else { s with at_ }

def outside? (s : Lexer) (t : Token) (at_ : Cursor) : Option Lexer := do
  let s ← (s.closeBlocks none).dropKey?
  return { s with keyAllowed := false }.emit t at_

def openFlow? (s : Lexer) (t : Token) (at_ : Cursor) : Option Lexer := do
  let s ← s.saveKey?
  return { s with flowKeys := none :: s.flowKeys, keyAllowed := true }.emit t at_

def closeFlow? (s : Lexer) (t : Token) (at_ : Cursor) : Option Lexer := do
  let s ← s.dropKey?
  return { s with flowKeys := s.flowKeys.tail, keyAllowed := false }.emit t at_

def entry? (s : Lexer) (at_ : Cursor) : Option Lexer := do
  let s ← (← s.openHere? .blockSequenceStart).dropKey?
  return { s with keyAllowed := true }.emit .blockEntry at_

def key? (s : Lexer) (at_ : Cursor) : Option Lexer := do
  let s ← (← s.openHere? .blockMappingStart).dropKey?
  return { s with keyAllowed := !s.inFlow }.emit .key at_

def value? (s : Lexer) (at_ : Cursor) : Option Lexer :=
  match s.keyStart? with
  | some k =>
    let tokens := s.tokens.toList
    let marked := tokens.take k.tokens ++ Token.key :: tokens.drop k.tokens
    let s := { s with tokens := marked.toArray }
    let s := (s.openBlock k.at_.column k.tokens .blockMappingStart).withKey none
    some ({ s with keyAllowed := false }.emit .value at_)
  | none => do
    let s ← s.openHere? .blockMappingStart
    return { s with keyAllowed := !s.inFlow }.emit .value at_

def inKey? (s : Lexer) (read : Option (Token × Cursor)) : Option Lexer := do
  let (t, at_) ← read
  let s ← s.saveKey?
  return { s with keyAllowed := false }.emit t at_

def block? (s : Lexer) (style : Style) (at_ : Cursor) : Option Lexer := do
  let (text, at_) ← Content.block (style = .literal) s.blocks.head? at_
  let s ← s.dropKey?
  return { s with keyAllowed := true }.emit (.scalar style (String.ofList text)) at_

def plain? (s : Lexer) : Option Lexer := do
  let indent := match s.blocks.head? with
    | some b => b + 1
    | none => 0
  let read ← Content.plain s.inFlow indent [] {} true s.at_ s.at_.rest
  let s ← s.saveKey?
  return { s with keyAllowed := read.broken }.emit
    (.scalar .plain (String.ofList read.text)) read.after

/-- A character that a plain text begins with; `rest` stands behind it. -/
def beginsPlain (inFlow : Bool) (c : Char) (rest : List Char) : Bool :=
  !"-?:,[]\x7b\x7d#&*!|>'\"%@\x60".toList.contains c && !isBlank c
    || c = '-' && !startsWith isBlank rest
    || !inFlow && (c = '?' || c = ':') && !endsWord rest

def quoted (read : Option (List Char × Cursor)) : Option (Token × Cursor) :=
  read.map fun (text, at_) => (.scalar .quoted (String.ofList text), at_)

def token? (s : Lexer) (c : Char) (rest : List Char) : Option Lexer :=
  let next := s.at_.ahead 1 rest
  let marks := s.inFlow || endsWord rest
  if s.at_.column = 0 && c = '%' then do
    let (d, at_) ← Property.directive? next
    s.outside? (.directive d) at_
  else if s.at_.isMarker then
    s.outside? (if c = '-' then .documentStart else .documentEnd)
      (s.at_.ahead 3 (rest.drop 2))
  else
    match c with
    | '[' => s.openFlow? .flowSequenceStart next
    | '\x7b' => s.openFlow? .flowMappingStart next
    | ']' => s.closeFlow? .flowSequenceEnd next
    | '\x7d' => s.closeFlow? .flowMappingEnd next
    | ',' => do
      let s ← s.dropKey?
      return { s with keyAllowed := true }.emit .flowEntry next
    | '*' => s.inKey? ((Property.name? next).map fun (name, at_) => (.alias name, at_))
    | '&' => s.inKey? ((Property.name? next).map fun (name, at_) => (.anchor name, at_))
    | '!' => s.inKey? ((Property.tag? s.inFlow s.at_).map fun (t, at_) => (.tag t, at_))
    | '\'' => s.inKey? (quoted (Content.single [] {} next rest))
    | '"' => s.inKey? (quoted (Content.double [] {} next rest))
    | _ =>
      if c = '-' && endsWord rest then s.entry? next
      else if c = '?' && marks then s.key? next
      else if c = ':' && marks then s.value? next
      else if c = '|' && !s.inFlow then s.block? .literal next
      else if c = '>' && !s.inFlow then s.block? .folded next
      else if beginsPlain s.inFlow c rest then s.plain?
      else none

def finish? (s : Lexer) : Option (List Token) := do
  return (← (s.closeBlocks none).dropKey?).tokens.toList

def run : (fuel : Nat) → Lexer → Option (List Token)
  | 0, s => s.finish?
  | fuel + 1, s => do
    let s := skipSpace (s.at_.rest.length + 1) s
    let s ← s.dropStale?
    match s.at_.rest with
    | [] => s.finish?
    | c :: rest => run fuel (← (s.closeBlocks (some s.at_.column)).token? c rest)

end Lexer

def Token.ofText? (text : List Char) : Option (List Token) :=
  if text.all isPrintable then Lexer.run (text.length + 1) { at_ := { rest := text } } else none

end Intake.Yaml
