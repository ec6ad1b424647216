import Intake.Text.Utf8

set_option autoImplicit false

/-!
Placeholders in the text of settings: a name between braces behind a dollar sign, with an optional
default. One pass from the left puts the value of the variable in the place of each; what it puts
there is not looked at again.
-/

namespace Intake.Settings

open Intake.Text

/-- The texts of variables, of which each one that is set has bytes; one whose bytes are no text
counts as not set. -/
def textsOf (bytes? : String → Option (List UInt8)) (name : String) : Option String :=
  (bytes? name).bind fun bytes => (Utf8.decode bytes).toOption.map String.ofList

structure Placeholder where
  name : String
  fallback : Option String
  deriving DecidableEq, Repr, Inhabited

namespace Placeholder

def isNameStart (c : Char) : Bool := c.isAlpha || c = '_'

def isNameChar (c : Char) : Bool := c.isAlphanum || c = '_'

def closed? : List Char → Option (List Char)
  | '\x7d' :: rest => some rest
  | _ => none

def ending? : List Char → Option (Option String × List Char)
  | ':' :: '-' :: rest => do
    let after ← closed? (rest.dropWhile (· ≠ '\x7d'))
    return (some (String.ofList (rest.takeWhile (· ≠ '\x7d'))), after)
  | rest => do return (none, ← closed? rest)

def read? : List Char → Option (Placeholder × List Char)
  | '$' :: '\x7b' :: c :: rest => do
    if !isNameStart c then none
    else
      let (fallback, after) ← ending? (rest.dropWhile isNameChar)
      return (⟨String.ofList (c :: rest.takeWhile isNameChar), fallback⟩, after)
  | _ => none

private theorem length_closed {text after : List Char} (h : closed? text = some after) :
    after.length < text.length := by
  unfold closed? at h
  split at h
  · next rest =>
    obtain rfl : rest = after := by simpa using h
    simp
  · simp at h

private theorem length_dropWhile_le (p : Char → Bool) (text : List Char) :
    (text.dropWhile p).length ≤ text.length := (List.dropWhile_sublist p).length_le

private theorem length_ending {text after : List Char} {fallback : Option String}
    (h : ending? text = some (fallback, after)) : after.length < text.length := by
  unfold ending? at h
  split at h
  · next rest =>
    simp only [Option.bind_eq_bind, Option.bind_eq_some_iff, Option.pure_def, Option.some.injEq,
      Prod.mk.injEq] at h
    obtain ⟨a, ha, _, rfl⟩ := h
    have := length_closed ha
    have := length_dropWhile_le (· ≠ '\x7d') rest
    simp only [List.length_cons]
    omega
  · simp only [Option.bind_eq_bind, Option.bind_eq_some_iff, Option.pure_def, Option.some.injEq,
      Prod.mk.injEq] at h
    obtain ⟨a, ha, _, rfl⟩ := h
    exact length_closed ha

private theorem length_read {text after : List Char} {p : Placeholder}
    (h : read? text = some (p, after)) : after.length < text.length := by
  unfold read? at h
  split at h
  · next c rest =>
    split at h
    · simp at h
    · simp only [Option.bind_eq_bind, Option.bind_eq_some_iff, Option.pure_def, Option.some.injEq,
        Prod.mk.injEq] at h
      obtain ⟨⟨fallback, a⟩, ha, _, rfl⟩ := h
      have := length_ending ha
      have := length_dropWhile_le isNameChar rest
      simp only [List.length_cons]
      omega
  · simp at h

/-- What a placeholder stands for: the variable, else the default, else nothing. -/
def value (environment : String → Option String) (p : Placeholder) : String :=
  (environment p.name).getD (p.fallback.getD "")

end Placeholder

/-- A piece of a text: a placeholder, or a character outside of all placeholders. -/
inductive Piece where
  | placeholder (p : Placeholder)
  | character (c : Char)
  deriving DecidableEq, Repr, Inhabited

def pieces (text : List Char) : List Piece :=
  match _h : Placeholder.read? text with
  | some (p, after) => .placeholder p :: pieces after
  | none =>
    match text with
    | [] => []
    | c :: rest => .character c :: pieces rest
  termination_by text.length
  decreasing_by
    · exact Placeholder.length_read (by assumption)
    · simp

def Piece.expanded (environment : String → Option String) : Piece → List Char
  | .placeholder p => (p.value environment).toList
  | .character c => [c]

/-- Puts values in the place of placeholders. -/
def expand (environment : String → Option String) (text : List Char) : List Char :=
  (pieces text).flatMap (Piece.expanded environment)

def variableNames (text : List Char) : List String :=
  (pieces text).filterMap fun
    | .placeholder p => some p.name
    | .character _ => none

end Intake.Settings
