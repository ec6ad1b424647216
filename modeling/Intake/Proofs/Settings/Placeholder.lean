import Intake.Proofs.Text.Utf8
import Intake.Settings.Placeholder
import Mathlib.Data.List.Basic
import Mathlib.Data.List.TakeWhile

set_option autoImplicit false

/-!
Expansion of placeholders. A placeholder is read exactly where one is written; the equations of one
pass from the left have the expansion as their only solution, and a text without placeholders stays
as it is.
-/

namespace Intake.Settings

open Intake.Text

/-! ## How placeholders are written -/

namespace Placeholder

/-- The name is a letter or an underscore and then letters, digits and underscores, all of ASCII,
and the default has no closing brace. -/
structure IsWellFormed (p : Placeholder) : Prop where
  named : ∃ c rest, p.name.toList = c :: rest ∧ (c.isAlpha = true ∨ c = '_') ∧
    ∀ d ∈ rest, d.isAlphanum = true ∨ d = '_'
  closed : ∀ text ∈ p.fallback, '\x7d' ∉ text.toList

/-- What stands behind the name: the default, if there is one, and a closing brace. -/
def endingChars : Option String → List Char
  | none => ['\x7d']
  | some text => ':' :: '-' :: (text.toList ++ ['\x7d'])

def chars (p : Placeholder) : List Char :=
  '$' :: '\x7b' :: (p.name.toList ++ endingChars p.fallback)

private theorem isNameStart_iff {c : Char} : isNameStart c = true ↔ c.isAlpha = true ∨ c = '_' := by
  simp [isNameStart]

private theorem isNameChar_iff {c : Char} :
    isNameChar c = true ↔ c.isAlphanum = true ∨ c = '_' := by
  simp [isNameChar]

private theorem closed?_eq_some_iff {text after : List Char} :
    closed? text = some after ↔ text = '\x7d' :: after := by
  unfold closed?
  split
  · next rest => simp
  · next other =>
    simp only [reduceCtorEq, false_iff]
    exact other after

private theorem ending?_default {rest after : List Char} {fallback : Option String} :
    ending? (':' :: '-' :: rest) = some (fallback, after) ↔
      ∃ text, fallback = some text ∧ '\x7d' ∉ text.toList ∧
        rest = text.toList ++ '\x7d' :: after := by
  simp only [ending?, Option.bind_eq_bind, Option.bind_eq_some_iff, Option.pure_def,
    Option.some.injEq, Prod.mk.injEq, closed?_eq_some_iff]
  constructor
  · rintro ⟨a, behind, rfl, rfl⟩
    refine ⟨_, rfl, ?_, ?_⟩
    · rw [String.toList_ofList]
      intro there
      simpa using List.mem_takeWhile_imp there
    · rw [String.toList_ofList, ← behind, List.takeWhile_append_dropWhile]
  · rintro ⟨text, rfl, open_, rfl⟩
    have inside : ∀ c ∈ text.toList, decide (c ≠ '\x7d') = true := fun c there =>
      decide_eq_true fun same => open_ (same ▸ there)
    have taken : (text.toList ++ '\x7d' :: after).takeWhile (· ≠ '\x7d') = text.toList := by
      rw [List.takeWhile_append_of_pos inside]
      simp
    have left : (text.toList ++ '\x7d' :: after).dropWhile (· ≠ '\x7d') = '\x7d' :: after := by
      rw [List.dropWhile_append_of_pos inside]
      simp
    exact ⟨after, left, by rw [taken, String.ofList_toList], rfl⟩

private theorem ending?_eq_some_iff {text after : List Char} {fallback : Option String} :
    ending? text = some (fallback, after) ↔
      (∀ s ∈ fallback, '\x7d' ∉ s.toList) ∧ text = endingChars fallback ++ after := by
  by_cases marked : ∃ rest, text = ':' :: '-' :: rest
  · obtain ⟨rest, rfl⟩ := marked
    rw [ending?_default]
    cases fallback with
    | none => simp [endingChars]
    | some s => simp [endingChars]
  · have bare : ending? text = (closed? text).map fun after => (none, after) := by
      unfold ending?
      split
      · next rest => exact absurd ⟨rest, rfl⟩ marked
      · cases closed? text <;> rfl
    rw [bare, Option.map_eq_some_iff]
    cases fallback with
    | none => simp [endingChars, closed?_eq_some_iff]
    | some s =>
      have other : text ≠ endingChars (some s) ++ after := fun same => marked ⟨_, same⟩
      simp [other]

private theorem span_endingChars {letters : List Char} (all : ∀ c ∈ letters, isNameChar c = true)
    (fallback : Option String) (after : List Char) :
    (letters ++ (endingChars fallback ++ after)).takeWhile isNameChar = letters ∧
      (letters ++ (endingChars fallback ++ after)).dropWhile isNameChar =
        endingChars fallback ++ after := by
  rw [List.takeWhile_append_of_pos all, List.dropWhile_append_of_pos all]
  cases fallback with
  | none => simp [endingChars, isNameChar]
  | some text => simp [endingChars, isNameChar]

/-- A placeholder is read exactly where it is written. -/
theorem read?_eq_some_iff {text after : List Char} {p : Placeholder} :
    read? text = some (p, after) ↔ p.IsWellFormed ∧ text = p.chars ++ after := by
  constructor
  · intro found
    unfold read? at found
    split at found
    · next c rest =>
      split at found
      · simp at found
      · next start =>
        simp only [Option.bind_eq_bind, Option.bind_eq_some_iff, Option.pure_def,
          Option.some.injEq, Prod.mk.injEq] at found
        obtain ⟨⟨fallback, a⟩, ended, rfl, rfl⟩ := found
        obtain ⟨closed, behind⟩ := ending?_eq_some_iff.mp ended
        have start : isNameStart c = true := by simpa using start
        refine ⟨⟨⟨c, rest.takeWhile isNameChar, String.toList_ofList, isNameStart_iff.mp start,
          fun d there => ?_⟩, closed⟩, ?_⟩
        · exact isNameChar_iff.mp (List.mem_takeWhile_imp there)
        · have whole : rest.takeWhile isNameChar ++ (endingChars fallback ++ a) = rest := by
            rw [← behind, List.takeWhile_append_dropWhile]
          simp only [chars, String.toList_ofList, List.cons_append, List.append_assoc, whole]
    · simp at found
  · rintro ⟨⟨⟨c, rest, named, start, letters⟩, closed⟩, rfl⟩
    obtain ⟨taken, left⟩ := span_endingChars
      (fun d there => isNameChar_iff.mpr (letters d there)) p.fallback after
    have written : p.chars ++ after =
        '$' :: '\x7b' :: c :: (rest ++ (endingChars p.fallback ++ after)) := by
      rw [chars, named]
      simp
    have ended : ending? (endingChars p.fallback ++ after) = some (p.fallback, after) :=
      ending?_eq_some_iff.mpr ⟨closed, rfl⟩
    have name : String.ofList (c :: rest) = p.name := by
      rw [← named, String.ofList_toList]
    rw [written, read?, isNameStart_iff.mpr start, taken, left, ended]
    simp [name]

end Placeholder

/-! ## One pass -/

section Pieces

variable {text after : List Char} {p : Placeholder} {c : Char}

@[simp] private theorem pieces_nil : pieces [] = [] := by
  rw [pieces]
  rfl

private theorem pieces_of_read (found : Placeholder.read? text = some (p, after)) :
    pieces text = .placeholder p :: pieces after := by
  rw [pieces]
  split
  · next q rest same =>
    rw [found] at same
    cases same
    rfl
  · next nothing => simp [found] at nothing

private theorem pieces_of_not_read (nothing : Placeholder.read? (c :: after) = none) :
    pieces (c :: after) = .character c :: pieces after := by
  rw [pieces]
  split
  · next q rest same => simp [nothing] at same
  · rfl

/-- What holds of no text, goes from what stands behind a placeholder to the whole, and goes from
what stands behind any other first character to the whole, holds of every text. -/
theorem pieces_induction {motive : List Char → Prop} (nil : motive [])
    (placeholder : ∀ (p : Placeholder) after, p.IsWellFormed → motive after →
      motive (p.chars ++ after))
    (character : ∀ c after, Placeholder.read? (c :: after) = none → motive after →
      motive (c :: after))
    (text : List Char) : motive text := by
  induction text using pieces.induct with
  | case1 text p after found ih =>
    obtain ⟨wellFormed, rfl⟩ := Placeholder.read?_eq_some_iff.mp found
    exact placeholder p after wellFormed ih
  | case2 => exact nil
  | case3 c rest nothing ih => exact character c rest nothing ih

private theorem read?_eq_none_iff :
    Placeholder.read? text = none ↔
      ∀ (p : Placeholder) after, p.IsWellFormed → text ≠ p.chars ++ after := by
  rw [Option.eq_none_iff_forall_ne_some]
  constructor
  · intro nothing p after wellFormed written
    exact nothing (p, after) (Placeholder.read?_eq_some_iff.mpr ⟨wellFormed, written⟩)
  · rintro unwritten ⟨p, after⟩ found
    obtain ⟨wellFormed, written⟩ := Placeholder.read?_eq_some_iff.mp found
    exact unwritten p after wellFormed written

end Pieces

section Expand

variable (environment : String → Option String) {text after : List Char} {p : Placeholder}

@[simp] private theorem expand_nil : expand environment [] = [] := by
  rw [expand, pieces_nil]
  rfl

private theorem expand_chars_append (wellFormed : p.IsWellFormed) (after : List Char) :
    expand environment (p.chars ++ after) =
      (p.value environment).toList ++ expand environment after := by
  have found : Placeholder.read? (p.chars ++ after) = some (p, after) :=
    Placeholder.read?_eq_some_iff.mpr ⟨wellFormed, rfl⟩
  rw [expand, pieces_of_read found, List.flatMap_cons]
  rfl

private theorem expand_cons {c : Char} (nothing : Placeholder.read? (c :: after) = none) :
    expand environment (c :: after) = c :: expand environment after := by
  rw [expand, pieces_of_not_read nothing, List.flatMap_cons]
  rfl

private theorem expand_eq_self
    (unwritten : ∀ front (p : Placeholder) back, p.IsWellFormed →
      text ≠ front ++ (p.chars ++ back)) :
    expand environment text = text := by
  induction text using pieces_induction with
  | nil => exact expand_nil environment
  | placeholder p after wellFormed ih => exact absurd rfl (unwritten [] p after wellFormed)
  | character c after nothing ih =>
    rw [expand_cons environment nothing, ih]
    intro front p back wellFormed written
    exact unwritten (c :: front) p back wellFormed (by rw [written, List.cons_append])

end Expand

/-! ## The equations -/

private theorem textsOf_eq_some_iff {bytes? : String → Option (List UInt8)} {name value : String} :
    textsOf bytes? name = some value ↔ bytes? name = some (Utf8.encode value.toList) := by
  unfold textsOf
  cases bytes? name with
  | none => simp
  | some bytes =>
    have read_iff : some bytes = some (Utf8.encode value.toList) ↔
        Utf8.decode bytes = .ok value.toList := by
      rw [Option.some.injEq, Utf8.decode_eq_ok_iff, eq_comm]
    rw [Option.bind_some, read_iff]
    cases Utf8.decode bytes with
    | error fault => simp [Except.toOption]
    | ok chars =>
      simp only [Except.toOption, Option.map_some, Option.some.injEq, Except.ok.injEq]
      constructor
      · rintro rfl
        exact String.toList_ofList.symm
      · rintro rfl
        exact String.ofList_toList

/-- What a pass from the left makes of a text, where each variable that is set has bytes. -/
structure Expands (bytes? : String → Option (List UInt8)) (f : List Char → List Char) :
    Prop where
  nil : f [] = []
  set : ∀ (p : Placeholder) (value : String) after, p.IsWellFormed →
    bytes? p.name = some (Utf8.encode value.toList) →
    f (p.chars ++ after) = value.toList ++ f after
  unset : ∀ (p : Placeholder) after, p.IsWellFormed →
    (∀ value : String, bytes? p.name ≠ some (Utf8.encode value.toList)) →
    f (p.chars ++ after) = (p.fallback.getD "").toList ++ f after
  character : ∀ c after, (∀ (p : Placeholder) rest, p.IsWellFormed → c :: after ≠ p.chars ++ rest) →
    f (c :: after) = c :: f after

private theorem expands_expand (bytes? : String → Option (List UInt8)) :
    Expands bytes? (expand (textsOf bytes?)) where
  nil := expand_nil _
  set p value after wellFormed set := by
    rw [expand_chars_append _ wellFormed, Placeholder.value, textsOf_eq_some_iff.mpr set,
      Option.getD_some]
  unset p after wellFormed unset := by
    have nothing : textsOf bytes? p.name = none :=
      Option.eq_none_iff_forall_ne_some.mpr fun value set =>
        unset value (textsOf_eq_some_iff.mp set)
    rw [expand_chars_append _ wellFormed, Placeholder.value, nothing, Option.getD_none]
  character c after unwritten := expand_cons _ (read?_eq_none_iff.mpr unwritten)

private theorem Expands.eq {bytes? : String → Option (List UInt8)} {f g : List Char → List Char}
    (first : Expands bytes? f) (second : Expands bytes? g) : f = g := by
  funext text
  -- The induction goes along the equations: each of them leaves a text that is behind.
  induction text using pieces_induction with
  | nil => rw [first.nil, second.nil]
  | placeholder p after wellFormed ih =>
    by_cases set : ∃ value : String, bytes? p.name = some (Utf8.encode value.toList)
    · obtain ⟨value, set⟩ := set
      rw [first.set p value after wellFormed set,
        second.set p value after wellFormed set, ih]
    · have unset := not_exists.mp set
      rw [first.unset p after wellFormed unset, second.unset p after wellFormed unset, ih]
  | character c after nothing ih =>
    have unwritten := read?_eq_none_iff.mp nothing
    rw [first.character c after unwritten, second.character c after unwritten, ih]

/-- The equations of one pass from the left have the expansion as their only solution, and a text in
which no placeholder is written stays as it is. -/
theorem expand_onePass (bytes? : String → Option (List UInt8)) :
    (∀ f, Expands bytes? f ↔ f = expand (textsOf bytes?)) ∧
      ∀ text : List Char,
        (∀ front (p : Placeholder) back, p.IsWellFormed → text ≠ front ++ (p.chars ++ back)) →
        expand (textsOf bytes?) text = text := by
  refine ⟨fun f => ⟨fun expands => expands.eq (expands_expand bytes?), ?_⟩, fun text => ?_⟩
  · rintro rfl
    exact expands_expand bytes?
  · exact expand_eq_self (textsOf bytes?)

end Intake.Settings
