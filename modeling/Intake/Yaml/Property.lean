import Intake.Text.Utf8
import Intake.Yaml.Content

set_option autoImplicit false

/-!
What stands in front of nodes and documents: anchors, tags and directives.
-/

namespace Intake.Yaml

open Intake.Text

/-- A tag as it is written: a handle that a directive may explain, and the rest. -/
structure TagText where
  handle : String
  suffix : String
  deriving DecidableEq, Repr, Inhabited

inductive Directive where
  | version (major minor : Nat)
  | tag (handle stem : String)
  deriving DecidableEq, Repr, Inhabited

namespace Property

def name? (at_ : Cursor) : Option (String × Cursor) :=
  let (name, at_) := at_.takeWhile isWord
  let ends := endsWord at_.rest || startsWith (fun c => "?:,]\x7d%@\x60".toList.contains c) at_.rest
  if name.isEmpty || !ends then none else some (String.ofList name, at_)

/-- A character of a tag that is not escaped; brackets and commas only count where no flow could
end. -/
def isTagChar (wide : Bool) (c : Char) : Bool :=
  isWord c || ";/?:@&=+$.!~*'()".toList.contains c || (wide && ",[]".toList.contains c)

def escapes : List Char → List UInt8 × List Char
  | '%' :: a :: b :: rest =>
    match Digits.hexValue? a, Digits.hexValue? b with
    | some x, some y =>
      let (bytes, rest) := escapes rest
      (UInt8.ofNat (16 * x + y) :: bytes, rest)
    | _, _ => ([], '%' :: a :: b :: rest)
  | rest => ([], rest)

/-- The characters of a tag, escapes resolved; `fuel` exceeds the length of the text. -/
def tagChars (wide : Bool) : (fuel : Nat) → Cursor → Option (List Char × Cursor)
  | 0, at_ => some ([], at_)
  | fuel + 1, at_ =>
    match at_.rest with
    | [] => some ([], at_)
    | c :: rest =>
      if c = '%' then do
        let (bytes, rest) := escapes at_.rest
        if bytes.isEmpty then none
        else
          let chars ← (Utf8.decode bytes).toOption
          let (more, after) ← tagChars wide fuel (at_.ahead (3 * bytes.length) rest)
          return (chars ++ more, after)
      else if isTagChar wide c then do
        let (more, after) ← tagChars wide fuel (at_.ahead 1 rest)
        return (c :: more, after)
      else some ([], at_)

def tagRest (wide : Bool) (read : String) (at_ : Cursor) : Option (String × Cursor) := do
  let (chars, after) ← tagChars wide (at_.rest.length + 1) at_
  if read.isEmpty && chars.isEmpty then none
  else return ((read.drop 1).toString ++ String.ofList chars, after)

/-- A handle: a mark, a name, and a mark again if there is one. -/
def handle? (at_ : Cursor) : Option (String × Cursor) :=
  match at_.rest with
  | '!' :: rest =>
    let (name, at_) := (at_.ahead 1 rest).takeWhile isWord
    match at_.rest with
    | '!' :: rest => some (String.ofList ('!' :: name ++ ['!']), at_.ahead 1 rest)
    | _ => some (String.ofList ('!' :: name), at_)
  | _ => none

def tag? (inFlow : Bool) (at_ : Cursor) : Option (TagText × Cursor) := do
  let (tag, at_) ← match at_.rest with
    | '!' :: '<' :: rest => do
      let (suffix, at_) ← tagRest true "" (at_.ahead 2 rest)
      match at_.rest with
      | '>' :: rest => pure ((⟨"", suffix⟩ : TagText), at_.ahead 1 rest)
      | _ => none
    | _ => do
      let (handle, at_) ← handle? at_
      if 1 < handle.length && handle.endsWith "!" then
        let (suffix, at_) ← tagRest false "" at_
        pure (⟨handle, suffix⟩, at_)
      else
        let (suffix, at_) ← tagRest false handle at_
        pure (if suffix.isEmpty then ⟨"", "!"⟩ else ⟨"!", suffix⟩, at_)
  if endsWord at_.rest || (inFlow && startsWith (· = ',') at_.rest) then return (tag, at_)
  else none

/-- A number of at most nine digits. -/
def number? (at_ : Cursor) : Option (Nat × Cursor) :=
  let (digits, at_) := at_.takeWhile Digits.isDigit
  if digits.isEmpty || 9 < digits.length then none
  else (Digits.natural? digits).map (·, at_)

/-- A version: two numbers with a point between. -/
def version? (at_ : Cursor) : Option (Directive × Cursor) := do
  let (major, at_) ← number? (at_.dropWhile isBlank)
  match at_.rest with
  | '.' :: rest =>
    let (minor, at_) ← number? (at_.ahead 1 rest)
    return (.version major minor, at_)
  | _ => none

def tagDirective? (at_ : Cursor) : Option (Directive × Cursor) := do
  let (handle, at_) ← handle? (at_.dropWhile isBlank)
  if !startsWith isBlank at_.rest || !handle.endsWith "!" then none
  else
    let (stem, at_) ← tagRest true "" (at_.dropWhile isBlank)
    if endsWord at_.rest then return (.tag handle stem, at_) else none

def directive? (at_ : Cursor) : Option (Directive × Cursor) := do
  let (name, at_) := at_.takeWhile isWord
  if !endsWord at_.rest then none
  else
    let (directive, at_) ←
      if name = "YAML".toList then version? at_
      else if name = "TAG".toList then tagDirective? at_
      else none
    return (directive, ← at_.endLine?)

end Property

end Intake.Yaml
