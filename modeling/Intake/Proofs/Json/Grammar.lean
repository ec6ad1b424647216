import Intake.Json.Lexeme
import Mathlib.Data.List.Basic

set_option autoImplicit false

/-!
The grammar of JSON texts, apart from any reader. White space, texts, numbers and members are
written down in pieces that are well-formed by themselves; `IsValue` says which texts are values.
What a text in quotes means is told from its pieces, with the fault that stands in it if it means
nothing.
-/

namespace Intake.Json

open Intake.Text

structure Blank where
  chars : List Char
  spaces : ∀ c ∈ chars, isSpace c = true

def Blank.none : Blank := ⟨[], by simp⟩

/-- A piece of a text in quotes: a character that stands for itself, or an escape and what it means:
a character, or sixteen bits of one. -/
inductive Glyph where
  | plain (c : Char) (allowed : c ≠ '"' ∧ c ≠ '\\' ∧ 0x20 ≤ c.toNat)
  | short (letter meant : Char) (known : shortEscape letter = some meant)
  | hex (a b c d : Char) (bits : Nat) (known : fourHex a b c d = some bits)

namespace Glyph

def chars : Glyph → List Char
  | plain c _ => [c]
  | short letter _ _ => ['\\', letter]
  | hex a b c d _ _ => ['\\', 'u', a, b, c, d]

def spelled (glyphs : List Glyph) : List Char := glyphs.flatMap chars

/-- The second half of a character beyond sixteen bits. -/
def isLow (bits : Nat) : Bool := 0xDC00 ≤ bits && bits ≤ 0xDFFF

/-- The first half of a character beyond sixteen bits. -/
def isHigh (bits : Nat) : Bool := 0xD800 ≤ bits && bits ≤ 0xDBFF

def joined (high low : Nat) : Char :=
  Char.ofNat (0x10000 + (high - 0xD800) * 1024 + (low - 0xDC00))

/-- What pieces mean, or the fault in front of what is left of them and the closing quote: every half
of a character must stand next to its other half. -/
def meaning : List Glyph → Except Stop (List Char)
  | [] => .ok []
  | plain c _ :: rest => (meaning rest).map (c :: ·)
  | short _ meant _ :: rest => (meaning rest).map (meant :: ·)
  | hex _ _ _ _ bits _ :: rest =>
    if isLow bits then .error (.here .loneSurrogate (spelled rest ++ ['"']))
    else if !isHigh bits then (meaning rest).map (Char.ofNat bits :: ·)
    else match rest with
      | hex _ _ _ _ low _ :: rest =>
        if isLow low then (meaning rest).map (joined bits low :: ·)
        else .error (.here .loneSurrogate (spelled rest ++ ['"']))
      | short letter _ _ :: rest => .error (.next .endOfEscape (letter :: (spelled rest ++ ['"'])))
      | rest => .error (.next .endOfEscape (spelled rest ++ ['"']))

def text? (glyphs : List Glyph) : Option String := (meaning glyphs).toOption.map String.ofList

def quoted (glyphs : List Glyph) : List Char := '"' :: (spelled glyphs ++ ['"'])

end Glyph

structure DigitRun where
  chars : List Char
  digits : ∀ c ∈ chars, Digits.isDigit c = true
  nonempty : chars ≠ []

/-- The exponent of a number. -/
structure ExponentText where
  letter : Char
  sign : List Char
  run : DigitRun
  letter_eq : letter = 'e' ∨ letter = 'E'
  sign_eq : sign = [] ∨ sign = ['+'] ∨ sign = ['-']

/-- A number; its whole part does not begin with a zero if it has more digits. -/
structure Numeral where
  negative : Bool
  whole : DigitRun
  fraction : Option DigitRun
  exponent : Option ExponentText
  leading : whole.chars = ['0'] ∨ whole.chars.head? ≠ some '0'

namespace Numeral

def signChars (n : Numeral) : List Char := if n.negative then ['-'] else []

def fractionChars (n : Numeral) : List Char :=
  match n.fraction with
  | none => []
  | some run => '.' :: run.chars

def exponentChars (n : Numeral) : List Char :=
  match n.exponent with
  | none => []
  | some e => e.letter :: (e.sign ++ e.run.chars)

def chars (n : Numeral) : List Char :=
  n.signChars ++ (n.whole.chars ++ (n.fractionChars ++ n.exponentChars))

end Numeral

structure Padded (α : Type) where
  before : Blank
  value : α
  after : Blank

/-- A member of an object: its name, and its value behind the colon. -/
structure MemberText (α : Type) where
  before : Blank
  name : List Glyph
  between : Blank
  slot : Padded α

/-- An array; `fill` is what stands in an array without items. -/
structure ArrayText (α : Type) where
  fill : Blank
  items : List (Padded α)

/-- An object; `fill` is what stands in an object without members. -/
structure ObjectText (α : Type) where
  fill : Blank
  members : List (MemberText α)

section Rendering

variable {α : Type} (render : α → List Char)

def Padded.chars (p : Padded α) : List Char := p.before.chars ++ (render p.value ++ p.after.chars)

def MemberText.chars (m : MemberText α) : List Char :=
  m.before.chars ++ (Glyph.quoted m.name ++ (m.between.chars ++ ':' :: m.slot.chars render))

def following (texts : List (List Char)) : List Char := texts.flatMap (',' :: ·)

/-- Texts with commas between them; without texts there is only white space. -/
def enclosed (fill : Blank) : List (List Char) → List Char
  | [] => fill.chars
  | first :: others => first ++ following others

def ArrayText.chars (a : ArrayText α) : List Char :=
  '[' :: (enclosed a.fill (a.items.map (Padded.chars render)) ++ [']'])

def ObjectText.chars (o : ObjectText α) : List Char :=
  '\x7b' :: (enclosed o.fill (o.members.map (MemberText.chars render)) ++ ['\x7d'])

end Rendering

def valueWords : List (List Char) :=
  [['n', 'u', 'l', 'l'], ['t', 'r', 'u', 'e'], ['f', 'a', 'l', 's', 'e']]

/-- The texts that are values. -/
inductive IsValue : List Char → Prop where
  | word {chars : List Char} (known : chars ∈ valueWords) : IsValue chars
  | number (n : Numeral) : IsValue n.chars
  | string (glyphs : List Glyph) : IsValue (Glyph.quoted glyphs)
  | array (a : ArrayText (List Char)) (items : ∀ p ∈ a.items, IsValue p.value) :
      IsValue (a.chars id)
  | object (o : ObjectText (List Char)) (members : ∀ m ∈ o.members, IsValue m.slot.value) :
      IsValue (o.chars id)

section Nesting

variable {α β : Type} {render : α → List Char}

def Padded.map (f : α → β) (p : Padded α) : Padded β := { p with value := f p.value }

def MemberText.map (f : α → β) (m : MemberText α) : MemberText β := { m with slot := m.slot.map f }

theorem isValue_array {a : ArrayText α} (items : ∀ p ∈ a.items, IsValue (render p.value)) :
    IsValue (a.chars render) := by
  have value := IsValue.array ⟨a.fill, a.items.map (Padded.map render)⟩
    (List.forall_mem_map.mpr items)
  have same : ArrayText.chars id ⟨a.fill, a.items.map (Padded.map render)⟩ = a.chars render := by
    rw [ArrayText.chars, ArrayText.chars, List.map_map]
    rfl
  rwa [same] at value

theorem isValue_object {o : ObjectText α} (members : ∀ m ∈ o.members, IsValue (render m.slot.value)) :
    IsValue (o.chars render) := by
  have value := IsValue.object ⟨o.fill, o.members.map (MemberText.map render)⟩
    (List.forall_mem_map.mpr members)
  have same : ObjectText.chars id ⟨o.fill, o.members.map (MemberText.map render)⟩ =
      o.chars render := by
    rw [ObjectText.chars, ObjectText.chars, List.map_map]
    rfl
  rwa [same] at value

abbrev ValueText := {text : List Char // IsValue text}

def spelling (text : String) : List Glyph :=
  text.toList.filterMap fun c =>
    if allowed : c ≠ '"' ∧ c ≠ '\\' ∧ 0x20 ≤ c.toNat then some (.plain c allowed)
    else (shortEscape c).pmap (fun meant known => .short c meant known) fun _ known => known

def tightMember (name : String) (value : α) : MemberText α :=
  ⟨.none, spelling name, .none, ⟨.none, value, .none⟩⟩

def textValue (text : String) : ValueText := ⟨_, .string (spelling text)⟩

end Nesting

/-- A text behind a value: there is none, or it begins with what no value goes on with. -/
def IsBoundary (rest : List Char) : Prop :=
  ∀ c ∈ rest.head?, isSpace c = true ∨ c = ',' ∨ c = ']' ∨ c = '\x7d'

section Spaces

@[simp] theorem skipSpace_blank (blank : Blank) (text : List Char) :
    skipSpace (blank.chars ++ text) = skipSpace text :=
  List.dropWhile_append_of_pos blank.spaces

theorem skipSpace_cons {c : Char} (solid : isSpace c = false) (text : List Char) :
    skipSpace (c :: text) = c :: text :=
  List.dropWhile_cons_of_neg (by simp [solid])

theorem IsBoundary.blank_append (blank : Blank) {rest : List Char} (boundary : IsBoundary rest) :
    IsBoundary (blank.chars ++ rest) := by
  intro c front
  cases chars : blank.chars with
  | nil =>
    rw [chars, List.nil_append] at front
    exact boundary c front
  | cons d more =>
    rw [chars, List.cons_append, List.head?_cons, Option.mem_some_iff] at front
    exact .inl (blank.spaces c (by rw [chars, front]; exact List.mem_cons_self))

theorem isSpace_of_isDigit {c : Char} (digit : Digits.isDigit c = true) : isSpace c = false := by
  refine Bool.eq_false_iff.mpr fun blank => ?_
  simp only [isSpace, Bool.or_eq_true, decide_eq_true_iff] at blank
  rcases blank with ((rfl | rfl) | rfl) | rfl <;> exact absurd digit (by decide)

theorem isBoundary_nil : IsBoundary [] := by simp [IsBoundary]

theorem isBoundary_comma (rest : List Char) : IsBoundary (',' :: rest) := by simp [IsBoundary]

end Spaces

end Intake.Json
