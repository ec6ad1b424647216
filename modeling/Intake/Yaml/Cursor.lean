set_option autoImplicit false

/-!
A place in a YAML text, with the classes of characters that its notation tells apart. White space
between the words of a scalar is read as a gap: one line break counts as a space, further ones are
kept.
-/

namespace Intake.Yaml

def isPrintable (c : Char) : Bool :=
  c = '\t' || c = '\n' || c = '\r' || (' ' ≤ c && c ≤ '~') || c = '\x85'
    || ('\u00a0' ≤ c && c ≤ '\ufffd') || '\uffff' < c

def isBlank (c : Char) : Bool := c = ' ' || c = '\t'

def isBreak (c : Char) : Bool :=
  c = '\n' || c = '\r' || c = '\x85' || c = '\u2028' || c = '\u2029'

def isWord (c : Char) : Bool := c.isAlphanum || c = '_' || c = '-'

def startsWith (test : Char → Bool) : List Char → Bool
  | [] => false
  | c :: _ => test c

def endsWord (text : List Char) : Bool :=
  text.isEmpty || startsWith (fun c => isBlank c || isBreak c) text

def breakText (c : Char) : Char := if c = '\u2028' || c = '\u2029' then c else '\n'

def atMarker : List Char → Bool
  | '-' :: '-' :: '-' :: rest => endsWord rest
  | '.' :: '.' :: '.' :: rest => endsWord rest
  | _ => false

structure Cursor where
  rest : List Char
  index : Nat := 0
  line : Nat := 0
  column : Nat := 0
  deriving DecidableEq, Repr, Inhabited

namespace Cursor

/-- Goes on to a text that is that many characters behind on the same line. -/
def ahead (at_ : Cursor) (count : Nat) (rest : List Char) : Cursor :=
  { at_ with rest, index := at_.index + count, column := at_.column + count }

def nextLine (at_ : Cursor) (count : Nat) (rest : List Char) : Cursor :=
  ⟨rest, at_.index + count, at_.line + 1, 0⟩

/-- Passes over the characters in front that satisfy a test, none of which ends a line. -/
def takeWhile (at_ : Cursor) (test : Char → Bool) : List Char × Cursor :=
  let taken := at_.rest.takeWhile test
  (taken, at_.ahead taken.length (at_.rest.dropWhile test))

/-- Passes over the characters in front that satisfy a test, none of which ends a line. -/
def dropWhile (at_ : Cursor) (test : Char → Bool) : Cursor := (at_.takeWhile test).2

/-- Passes over a line break in front, if there is one, and says what it counts as. -/
def lineBreak (at_ : Cursor) : List Char × Cursor :=
  match at_.rest with
  | '\r' :: '\n' :: rest => (['\n'], at_.nextLine 2 rest)
  | c :: rest => if isBreak c then ([breakText c], at_.nextLine 1 rest) else ([], at_)
  | [] => ([], at_)

def isMarker (at_ : Cursor) : Bool := at_.column = 0 && atMarker at_.rest

/-- Passes over the blanks in front, a comment behind them, and the end of the line. -/
def endLine? (at_ : Cursor) : Option Cursor :=
  let at_ := at_.dropWhile isBlank
  let at_ := if startsWith (· = '#') at_.rest then at_.dropWhile (!isBreak ·) else at_
  if at_.rest.isEmpty || startsWith isBreak at_.rest then some at_.lineBreak.2 else none

end Cursor

structure Gap where
  /-- The blanks in front of the first line break. -/
  blanks : List Char := []
  broken : Bool := false
  first : List Char := []
  others : List Char := []
  deriving Inhabited

namespace Gap

def text (g : Gap) : List Char :=
  if !g.broken then g.blanks
  else if g.first.head? = some '\n' then if g.others.isEmpty then [' '] else g.others
  else g.first ++ g.others

/-- The gap with one more blank; blanks in front of a line do not count. -/
def blank (g : Gap) (c : Char) : Gap :=
  if g.broken then g else { g with blanks := g.blanks ++ [c] }

def line (g : Gap) (c : Char) : Gap :=
  if g.broken then { g with others := g.others ++ [c] } else { broken := true, first := [c] }

def hidden : Gap := { broken := true }

end Gap

end Intake.Yaml
