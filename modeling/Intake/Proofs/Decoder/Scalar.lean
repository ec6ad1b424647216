import Intake.Proofs.Decoder.Reading
import Intake.Proofs.Json.Number

set_option autoImplicit false

/-!
Reading texts and whole numbers with a decoder. A value of another kind is refused, whatever it is and
wherever it stands.
-/

namespace Intake

open Intake.Json Intake.Number Intake.Text

namespace Json

def IsContent (value : List Char) (s : String) : Prop :=
  ∃ glyphs, value = Glyph.quoted glyphs ∧ Glyph.text? glyphs = some s

/-- A value that is null, or a whole number of sixty-four bits with a sign. -/
inductive IsNullable64 : List Char → Option Int → Prop where
  | null : IsNullable64 ['n', 'u', 'l', 'l'] none
  | number (n : Numeral) {i : Int} (written : n.integer? = some i)
      (low : -(Word.count 63 : Int) ≤ i) (high : i < Word.count 63) : IsNullable64 n.chars (some i)

theorem readScalar_quoted (glyphs : List Glyph) (tail : List Char) :
    readScalar (Glyph.quoted glyphs ++ tail) =
      some ((placed ((Glyph.meaning glyphs).map String.ofList) tail).map
        fun r => (.string r.1, r.2)) := by
  have text : Glyph.quoted glyphs ++ tail = '"' :: (Glyph.spelled glyphs ++ '"' :: tail) := by
    simp [Glyph.quoted]
  rw [text, ← stringBody_spelled]
  rfl

theorem readScalar_numeral (n : Numeral) (tail : List Char) :
    readScalar (n.chars ++ tail) =
      some ((signedNumber (n.chars ++ tail)).map fun r => (.number r.1, r.2)) := by
  obtain ⟨c, more, chars, minus | digit⟩ := n.exists_cons
  · rw [chars, minus]
    rfl
  · rw [chars, List.cons_append, readScalar]
    · simp [digit]
    all_goals exact ne_of_isDigit digit (by decide)

private theorem readScalar_container {value : List Char} (tail : List Char)
    (front : value.head? = some '[' ∨ value.head? = some '\x7b') :
    readScalar (value ++ tail) = none := by
  cases value with
  | nil => simp at front
  | cons c more =>
    simp only [List.head?_cons, Option.some.injEq] at front
    rcases front with rfl | rfl <;> rfl

private theorem IsValue.eq_null {value : List Char} (sound : IsValue value)
    (front : value.head? = some 'n') : value = ['n', 'u', 'l', 'l'] := by
  cases sound with
  | word known =>
    simp only [valueWords, List.mem_cons, List.not_mem_nil, or_false] at known
    rcases known with rfl | rfl | rfl
    · rfl
    · exact absurd front (by decide)
    · exact absurd front (by decide)
  | number n =>
    obtain ⟨c, more, chars, rfl | digit⟩ := n.exists_cons
    · simp [chars] at front
    · rw [chars, List.head?_cons] at front
      exact absurd (Option.some.inj front) (ne_of_isDigit digit (by decide))
  | string glyphs => exact absurd front (by simp [Glyph.quoted])
  | array a items => exact absurd front (by simp [ArrayText.chars])
  | object o members => exact absurd front (by simp [ObjectText.chars])

inductive ScalarOf (rest : List Char) : List Char → Json → Prop where
  | null : ScalarOf rest ['n', 'u', 'l', 'l'] .null
  | bool {value : List Char} (b : Bool) : ScalarOf rest value (.bool b)
  | number (n : Numeral) {number : JsonNumber} {behind : List Char}
      (read : signedNumber (n.chars ++ rest) = .ok (number, behind)) :
      ScalarOf rest n.chars (.number number)
  | string (glyphs : List Glyph) (s : String) : ScalarOf rest (Glyph.quoted glyphs) (.string s)

private theorem IsValue.scalarOf {value rest behind : List Char} {json : Json}
    (sound : IsValue value)
    (read : readScalar (value ++ rest) = some (.ok (json, behind))) : ScalarOf rest value json := by
  cases sound with
  | word known =>
    simp only [valueWords, List.mem_cons, List.not_mem_nil, or_false] at known
    rcases known with rfl | rfl | rfl
    all_goals
      obtain ⟨rfl, -⟩ := Prod.mk.inj (Except.ok.inj (Option.some.inj read))
      constructor
  | number n =>
    rw [readScalar_numeral] at read
    cases number : signedNumber (n.chars ++ rest) with
    | error stop => simp [number, Except.map] at read
    | ok r =>
      rw [number] at read
      obtain ⟨rfl, -⟩ := Prod.mk.inj (Except.ok.inj (Option.some.inj read))
      exact .number n number
  | string glyphs =>
    rw [readScalar_quoted] at read
    cases meant : Glyph.meaning glyphs with
    | error stop => simp [meant, placed, Except.map] at read
    | ok chars =>
      rw [meant] at read
      obtain ⟨rfl, -⟩ := Prod.mk.inj (Except.ok.inj (Option.some.inj read))
      exact .string glyphs _
  | array a items =>
    rw [readScalar_container rest (.inl rfl)] at read
    simp at read
  | object o members =>
    rw [readScalar_container rest (.inr rfl)] at read
    simp at read

theorem IsValue.skipSpace_append {value : List Char} (sound : IsValue value) (tail : List Char) :
    skipSpace (value ++ tail) = value ++ tail := by
  obtain ⟨c, more, chars, solid, -⟩ := sound.exists_cons
  rw [chars, List.cons_append, skipSpace_cons solid]

end Json

namespace Decoder

variable {α : Type} {expected : String} {accept : Json → Option (Except Mismatch α)}

theorem reads_scalar {value : List Char} (sound : IsValue value) (json : Json) {a : α}
    (read : ∀ rest, IsBoundary rest → readScalar (value ++ rest) = some (.ok (json, rest)))
    (accepted : accept json = some (.ok a)) :
    Reads (scalarOfText expected accept) value (some a) := by
  intro before rest boundary
  simp only [scalarOfText, skipSpace_blank, sound.skipSpace_append, read rest boundary, accepted]
  rfl

private theorem reads_scalar_none {value : List Char} (sound : IsValue value)
    (refused : ∀ rest, IsBoundary rest → ∀ json behind,
      readScalar (value ++ rest) = some (.ok (json, behind)) → ∀ a, accept json ≠ some (.ok a)) :
    Reads (scalarOfText expected accept) value none := by
  intro before rest boundary
  simp only [scalarOfText, skipSpace_blank, sound.skipSpace_append]
  cases read : readScalar (value ++ rest) with
  | none => rfl
  | some result =>
    cases result with
    | error stop => rfl
    | ok r =>
      have none_ := refused rest boundary r.1 r.2 read
      simp only
      split
      next a accepted => exact absurd accepted (none_ a)
      next => rfl
      next => rfl

theorem reads_string_quoted (levels : Nat) (glyphs : List Glyph) :
    Reads (Decoder.string.ofText levels) (Glyph.quoted glyphs) (Glyph.text? glyphs) := by
  have sound := IsValue.string glyphs
  cases meant : Glyph.meaning glyphs with
  | ok chars =>
    have text : Glyph.text? glyphs = some (String.ofList chars) := by
      simp [Glyph.text?, meant, Except.toOption]
    rw [text]
    refine reads_scalar sound (.string (String.ofList chars)) ?_ rfl
    intro rest _
    rw [readScalar_quoted, meant]
    rfl
  | error stop =>
    have text : Glyph.text? glyphs = none := by simp [Glyph.text?, meant, Except.toOption]
    rw [text]
    refine reads_scalar_none sound ?_
    intro rest _ json behind read
    rw [readScalar_quoted, meant] at read
    exact absurd (Option.some.inj read) (by simp [placed, Except.map])

private theorem reads_string_none (levels : Nat) {value : List Char} (sound : IsValue value)
    (other : ∀ glyphs, value ≠ Glyph.quoted glyphs) :
    Reads (Decoder.string.ofText levels) value none := by
  refine reads_scalar_none sound ?_
  intro rest _ json behind read a
  cases sound.scalarOf read with
  | null => simp
  | bool b => simp
  | number n read => simp
  | string glyphs s => exact absurd rfl (other glyphs)

private theorem reads_int64_numeral (levels : Nat) {n : Numeral} {i : Int}
    (written : n.integer? = some i) (low : -(Word.count 63 : Int) ≤ i) (high : i < Word.count 63) :
    Reads (int64.ofText levels) n.chars (some i) := by
  refine reads_scalar (.number n) (.number (.integer i)) ?_ ?_
  · intro rest boundary
    rw [readScalar_numeral, (signedNumber_numeral n boundary).1 i written low high]
    rfl
  · have inside : i ≤ (Word.count 63 - 1 : Nat) := by
      have positive : 0 < Word.count 63 := Nat.two_pow_pos 63
      omega
    simp [low, inside]

private theorem reads_int64_none (levels : Nat) {value : List Char} (sound : IsValue value)
    (other : ∀ i, ¬ IsNullable64 value (some i)) : Reads (int64.ofText levels) value none := by
  refine reads_scalar_none sound ?_
  intro rest boundary json behind read a
  cases sound.scalarOf read with
  | null => simp
  | bool b => simp
  | string glyphs s => simp
  | @number n number behind found =>
    cases number with
    | float x => simp
    | integer i =>
      have written := (signedNumber_numeral n boundary).2 i behind found
      by_cases inside : -(Word.count 63 : Int) ≤ i ∧ i ≤ (Word.count 63 - 1 : Nat)
      · have positive : 0 < Word.count 63 := Nat.two_pow_pos 63
        exact absurd (.number n written inside.1 (by omega)) (other i)
      · simp [inside]

theorem reads_option_null (d : Decoder α) (levels : Nat) :
    Reads (d.option.ofText levels) ['n', 'u', 'l', 'l'] (some none) := by
  intro before rest _
  simp only [Decoder.option, skipSpace_blank]
  rfl

theorem reads_option {d : Decoder α} {levels : Nat} {value : List Char} (sound : IsValue value)
    (other : value.head? ≠ some 'n') {read : Option α} (reads : Reads (d.ofText levels) value read) :
    Reads (d.option.ofText levels) value (read.map some) := by
  intro before rest boundary
  have inner : Reads (some <$> d.ofText levels : TextReader (Option α)) value (read.map some) :=
    reads_map some reads
  have front := inner Blank.none rest boundary
  simp only [Decoder.option, skipSpace_blank, sound.skipSpace_append]
  split
  next more same =>
    obtain ⟨c, chars, begins, -⟩ := sound.exists_cons
    rw [begins, List.cons_append] at same
    rw [begins, (List.cons.inj same).1] at other
    exact absurd rfl other
  next => exact front

private theorem isLocal_of_reads {d : Decoder α} {levels : Nat} {text : List Char}
    {meaning : α → Prop} (holds : ∀ a, meaning a → Reads (d.ofText levels) text (some a))
    (fails : (∀ a, ¬ meaning a) → Reads (d.ofText levels) text none) :
    d.IsLocal levels text ∧ ∀ a, d.reading levels text = some a ↔ meaning a := by
  by_cases some_ : ∃ a, meaning a
  · obtain ⟨a, means⟩ := some_
    obtain ⟨alone, isLocal⟩ := reading_of_reads (holds a means)
    refine ⟨isLocal, ?_⟩
    intro b
    rw [alone]
    constructor
    · intro same
      rwa [← Option.some.inj same]
    · intro other
      rw [← alone, (reading_of_reads (holds b other)).1]
  · have none_ : ∀ a, ¬ meaning a := not_exists.mp some_
    obtain ⟨alone, isLocal⟩ := reading_of_reads (fails none_)
    refine ⟨isLocal, ?_⟩
    intro b
    rw [alone]
    exact iff_of_false (by simp) (none_ b)

theorem string_iff (levels : Nat) {value : List Char} (sound : IsValue value) :
    Decoder.string.IsLocal levels value ∧
      ∀ s, Decoder.string.reading levels value = some s ↔ IsContent value s := by
  refine isLocal_of_reads ?_ ?_
  · rintro s ⟨glyphs, rfl, text⟩
    have reads := reads_string_quoted levels glyphs
    rwa [text] at reads
  · intro none_
    by_cases quoted : ∃ glyphs, value = Glyph.quoted glyphs
    · obtain ⟨glyphs, rfl⟩ := quoted
      have reads := reads_string_quoted levels glyphs
      cases text : Glyph.text? glyphs with
      | none => rwa [text] at reads
      | some s => exact absurd ⟨glyphs, rfl, text⟩ (none_ s)
    · exact reads_string_none levels sound (not_exists.mp quoted)

theorem nullable64_iff (levels : Nat) {value : List Char} (sound : IsValue value) :
    int64.option.IsLocal levels value ∧
      ∀ p, int64.option.reading levels value = some p ↔ IsNullable64 value p := by
  refine isLocal_of_reads ?_ ?_
  · intro p written
    cases written with
    | null => exact reads_option_null int64 levels
    | number n written low high =>
      have front : n.chars.head? ≠ some 'n' := by
        obtain ⟨c, more, chars, rfl | digit⟩ := n.exists_cons
        · simp [chars]
        · simpa [chars] using ne_of_isDigit digit (by decide)
      exact reads_option (.number n) front (reads_int64_numeral levels written low high)
  · intro none_
    have front : value.head? ≠ some 'n' := by
      intro front
      refine none_ none ?_
      rw [sound.eq_null front]
      exact .null
    exact reads_option sound front (reads_int64_none levels sound fun i => none_ (some i))

end Decoder

end Intake
