import Intake.Proofs.Json.Quoted

set_option autoImplicit false

/-!
Passing over a value. Every value of the grammar is passed over, however large its numbers and however
deep its containers, and what comes behind it decides nothing.
-/

namespace Intake.Json

open Intake.Text

theorem IsBoundary.head {rest : List Char} (boundary : IsBoundary rest) {c : Char}
    (front : c ∈ rest.head?) : Digits.isDigit c = false ∧ c ≠ '.' ∧ c ≠ 'e' ∧ c ≠ 'E' := by
  have cases := boundary c front
  simp only [isSpace, Bool.or_eq_true, decide_eq_true_iff] at cases
  rcases cases with ((((rfl | rfl) | rfl) | rfl) | rfl | rfl | rfl) <;> decide

theorem ne_of_isDigit {c d : Char} (digit : Digits.isDigit c = true)
    (other : Digits.isDigit d = false) : c ≠ d := by
  rintro rfl
  exact Bool.false_ne_true (other.symm.trans digit)

theorem dropWhile_run {run : List Char} (digits : ∀ c ∈ run, Digits.isDigit c = true)
    {rest : List Char} (ended : ∀ c ∈ rest.head?, Digits.isDigit c = false) :
    (run ++ rest).dropWhile Digits.isDigit = rest := by
  rw [List.dropWhile_append_of_pos digits]
  cases rest with
  | nil => rfl
  | cons c more => exact List.dropWhile_cons_of_neg (by simp [ended c rfl])

private theorem skipDigits_run (run : DigitRun) {rest : List Char}
    (ended : ∀ c ∈ rest.head?, Digits.isDigit c = false) :
    skipDigits (run.chars ++ rest) = .ok rest := by
  have positive := List.length_pos_of_ne_nil run.nonempty
  unfold skipDigits
  rw [dropWhile_run run.digits ended]
  exact if_neg (by rw [List.length_append]; omega)

section Numerals

variable {rest : List Char} (n : Numeral)

theorem fractionChars_none {n : Numeral} (absent : n.fraction = none) : n.fractionChars = [] := by
  rw [Numeral.fractionChars, absent]

theorem fractionChars_some {n : Numeral} {run : DigitRun} (present : n.fraction = some run) :
    n.fractionChars = '.' :: run.chars := by
  rw [Numeral.fractionChars, present]

theorem exponentChars_none {n : Numeral} (absent : n.exponent = none) : n.exponentChars = [] := by
  rw [Numeral.exponentChars, absent]

theorem exponentChars_some {n : Numeral} {e : ExponentText} (present : n.exponent = some e) :
    n.exponentChars = e.letter :: (e.sign ++ e.run.chars) := by
  rw [Numeral.exponentChars, present]

theorem DigitRun.exists_cons (run : DigitRun) :
    ∃ d more, run.chars = d :: more ∧ Digits.isDigit d = true := by
  obtain ⟨d, more, digits⟩ := List.exists_cons_of_ne_nil run.nonempty
  exact ⟨d, more, digits, run.digits d (by rw [digits]; exact List.mem_cons_self)⟩

private theorem skipExponent_exponentChars (boundary : IsBoundary rest) :
    skipExponent (n.exponentChars ++ rest) = .ok rest := by
  have ended : ∀ c ∈ rest.head?, Digits.isDigit c = false := fun c front =>
    (boundary.head front).1
  cases exponent : n.exponent with
  | none =>
    rw [exponentChars_none exponent]
    cases rest with
    | nil => rfl
    | cons c more =>
      obtain ⟨-, -, lower, upper⟩ := boundary.head (c := c) rfl
      simp [skipExponent, lower, upper]
  | some e =>
    rw [exponentChars_some exponent]
    obtain ⟨d, more, digits, digit⟩ := e.run.exists_cons
    have letter : (e.letter = 'e' || e.letter = 'E') = true := by simpa using e.letter_eq
    have skipped := skipDigits_run e.run ended
    rcases e.sign_eq with sign | sign | sign
    · have plus : d ≠ '+' := ne_of_isDigit digit (by decide)
      have minus : d ≠ '-' := ne_of_isDigit digit (by decide)
      simpa [skipExponent, sign, letter, digits, plus, minus] using skipped
    · simpa [skipExponent, sign, letter] using skipped
    · simpa [skipExponent, sign, letter] using skipped

theorem head_exponentChars (boundary : IsBoundary rest) {c : Char}
    (front : c ∈ (n.exponentChars ++ rest).head?) : Digits.isDigit c = false ∧ c ≠ '.' := by
  cases exponent : n.exponent with
  | none =>
    rw [exponentChars_none exponent] at front
    exact ⟨(boundary.head front).1, (boundary.head front).2.1⟩
  | some e =>
    rw [exponentChars_some exponent] at front
    obtain rfl : e.letter = c := by simpa using front
    rcases e.letter_eq with h | h <;> rw [h] <;> decide

theorem head_fractionChars (boundary : IsBoundary rest) {c : Char}
    (front : c ∈ (n.fractionChars ++ (n.exponentChars ++ rest)).head?) :
    Digits.isDigit c = false := by
  cases fraction : n.fraction with
  | none =>
    rw [fractionChars_none fraction] at front
    exact (head_exponentChars n boundary front).1
  | some run =>
    rw [fractionChars_some fraction] at front
    obtain rfl : '.' = c := by simpa using front
    decide

/-- What follows the whole part of a number is passed over: a fraction, if there is one, and an
exponent. -/
def skipParts (text : List Char) : Except Stop (List Char) := do
  match text with
  | '.' :: fraction => skipExponent (← skipDigits fraction)
  | _ => skipExponent text

private theorem skipParts_numeral (boundary : IsBoundary rest) :
    skipParts (n.fractionChars ++ (n.exponentChars ++ rest)) = .ok rest := by
  unfold skipParts
  cases fraction : n.fraction with
  | none =>
    rw [fractionChars_none fraction, List.nil_append]
    split
    next h => exact absurd rfl (head_exponentChars n boundary (by rw [h]; rfl)).2
    next => exact skipExponent_exponentChars n boundary
  | some run =>
    rw [fractionChars_some fraction]
    show skipDigits (run.chars ++ (n.exponentChars ++ rest)) >>= skipExponent = _
    rw [skipDigits_run run fun c front => (head_exponentChars n boundary front).1]
    exact skipExponent_exponentChars n boundary

private theorem skipNumber_numeral (boundary : IsBoundary rest) :
    skipNumber (n.whole.chars ++ (n.fractionChars ++ (n.exponentChars ++ rest))) = .ok rest := by
  have ended : ∀ c ∈ (n.fractionChars ++ (n.exponentChars ++ rest)).head?,
      Digits.isDigit c = false := fun c => head_fractionChars n boundary
  have behind := skipParts_numeral n boundary
  generalize n.fractionChars ++ (n.exponentChars ++ rest) = more at ended behind
  unfold skipNumber
  rcases n.leading with zero | other
  · rw [zero, List.singleton_append]
    cases more with
    | nil => exact behind
    | cons d more =>
      have last : Digits.isDigit d = false := ended d rfl
      simp only [last, Bool.false_eq_true, if_false]
      exact behind
  · obtain ⟨d, digits, whole, -⟩ := n.whole.exists_cons
    have nonzero : d ≠ '0' := by
      rintro rfl
      exact other (by rw [whole]; rfl)
    have skipped := skipDigits_run n.whole ended
    rw [whole, List.cons_append] at skipped ⊢
    split
    next same => exact absurd (List.cons.inj same).1 nonzero
    next =>
      simp only [skipped]
      exact behind

end Numerals

/-- What follows a value in the open containers, or in an object or array that has been opened. -/
def resume (fuel : Nat) (comma : Bool) (opened : List Open) (rest : List Char) :
    Except Stop (List Char) := do
  let (opened, rest) ← skipBetween (rest.length + 1) comma opened rest
  if opened.isEmpty then return rest else skipFrom fuel opened rest

private theorem skipBetween_fuel {f g : Nat} {comma : Bool} {opened : List Open} {text : List Char}
    (enough : text.length < f) (also : text.length < g) :
    skipBetween f comma opened text = skipBetween g comma opened text := by
  induction f generalizing g comma opened text with
  | zero => exact absurd enough (Nat.not_lt_zero _)
  | succ f ih =>
    obtain ⟨g, rfl⟩ : ∃ n, g = n + 1 := ⟨g - 1, by omega⟩
    cases opened with
    | nil => rfl
    | cons o outer =>
      rw [skipBetween, skipBetween]
      cases skipped : skipSpace text with
      | nil => rfl
      | cons c rest =>
        have shorter : rest.length < text.length := by
          have kept := (List.dropWhile_sublist isSpace (l := text)).length_le
          rw [← skipSpace, skipped, List.length_cons] at kept
          omega
        simp only [@ih g true outer rest (by omega) (by omega)]

/-- A value is passed over inside any containers, and then what follows it in them. -/
def Skips (value : List Char) : Prop :=
  ∃ n ≤ value.length, ∀ (fuel : Nat) (opened : List Open) (before : Blank) (rest : List Char),
    IsBoundary rest →
      skipFrom (n + fuel) opened (before.chars ++ (value ++ rest)) = resume fuel true opened rest

section Scalars

private theorem skips_word {value : List Char} (known : value ∈ valueWords) : Skips value := by
  simp only [valueWords, List.mem_cons, List.not_mem_nil, or_false] at known
  refine ⟨1, by rcases known with rfl | rfl | rfl <;> decide, ?_⟩
  intro fuel opened before rest _
  rw [Nat.add_comm, skipFrom, skipSpace_blank]
  rcases known with rfl | rfl | rfl <;> rfl

private theorem skips_quoted (glyphs : List Glyph) : Skips (Glyph.quoted glyphs) := by
  refine ⟨1, by simp [Glyph.quoted], ?_⟩
  intro fuel opened before rest _
  have text : Glyph.quoted glyphs ++ rest = '"' :: (Glyph.spelled glyphs ++ '"' :: rest) := by
    simp [Glyph.quoted]
  have enough : (Glyph.spelled glyphs).length ≤ (Glyph.spelled glyphs ++ '"' :: rest).length := by
    rw [List.length_append]
    exact Nat.le_add_right _ _
  rw [Nat.add_comm, skipFrom, skipSpace_blank, text, skipSpace_cons (by decide)]
  simp only [skipString_spelled glyphs rest enough]
  rfl

private theorem skips_numeral (n : Numeral) : Skips n.chars := by
  obtain ⟨d, digits, whole, digit⟩ := n.whole.exists_cons
  refine ⟨1, ?_, ?_⟩
  · simp [Numeral.chars, whole]
    omega
  intro fuel opened before rest boundary
  have skipped := skipNumber_numeral n boundary
  have text : n.chars ++ rest =
      n.signChars ++ (n.whole.chars ++ (n.fractionChars ++ (n.exponentChars ++ rest))) := by
    simp [Numeral.chars]
  rw [Nat.add_comm, skipFrom, skipSpace_blank, text]
  cases sign : n.negative with
  | true =>
    have minus : n.signChars = ['-'] := by simp [Numeral.signChars, sign]
    rw [minus, List.singleton_append, skipSpace_cons (by decide)]
    simp only [skipped]
    rfl
  | false =>
    have plain : n.signChars = [] := by simp [Numeral.signChars, sign]
    rw [plain, List.nil_append, whole, List.cons_append, skipSpace_cons (isSpace_of_isDigit digit)]
    rw [whole, List.cons_append] at skipped
    split
    next impossible => exact absurd impossible (List.cons_ne_nil _ _)
    iterate 7
      next same => exact absurd (List.cons.inj same).1 (ne_of_isDigit digit (by decide))
    next same =>
      obtain ⟨rfl, rfl⟩ := List.cons.inj same
      simp only [digit, if_true, skipped]
      rfl

end Scalars

theorem Numeral.exists_cons (n : Numeral) :
    ∃ c more, n.chars = c :: more ∧ (c = '-' ∨ Digits.isDigit c = true) := by
  obtain ⟨d, digits, whole, digit⟩ := n.whole.exists_cons
  unfold Numeral.chars Numeral.signChars
  cases n.negative with
  | true => exact ⟨_, _, rfl, .inl rfl⟩
  | false =>
    rw [whole]
    exact ⟨_, _, rfl, .inr digit⟩

theorem IsValue.exists_cons {value : List Char} (sound : IsValue value) :
    ∃ c more, value = c :: more ∧ isSpace c = false ∧ c ≠ ']' ∧ c ≠ '\x7d' := by
  cases sound with
  | word known =>
    simp only [valueWords, List.mem_cons, List.not_mem_nil, or_false] at known
    rcases known with rfl | rfl | rfl <;> exact ⟨_, _, rfl, by decide, by decide, by decide⟩
  | string glyphs => exact ⟨_, _, rfl, by decide, by decide, by decide⟩
  | array a items => exact ⟨_, _, rfl, by decide, by decide, by decide⟩
  | object o members => exact ⟨_, _, rfl, by decide, by decide, by decide⟩
  | number n =>
    obtain ⟨c, more, chars, rfl | digit⟩ := n.exists_cons
    · exact ⟨_, _, chars, by decide, by decide, by decide⟩
    · exact ⟨_, _, chars, isSpace_of_isDigit digit, ne_of_isDigit digit (by decide),
        ne_of_isDigit digit (by decide)⟩

section Containers

/-- What stands in a container: its text begins with what leads to a value, behind which there is
white space. -/
structure Entry where
  text : List Char
  value : List Char
  after : Blank

/-- The text of an entry leads to its value in an open container. -/
structure Entry.IsIn (e : Entry) (o : Open) : Prop where
  length_le : e.value.length ≤ e.text.length
  key : ∀ rest, ∃ b : Blank,
    skipKey o (e.text ++ rest) = .ok (b.chars ++ (e.value ++ (e.after.chars ++ rest)))
  front : ∀ rest, ∃ c more, skipSpace (e.text ++ rest) = c :: more ∧ c ≠ o.close ∧
    ∃ b : Blank, skipKey o (c :: more) = .ok (b.chars ++ (e.value ++ (e.after.chars ++ rest)))

private theorem Open.close_solid (o : Open) : isSpace o.close = false := by cases o <;> decide

private theorem resume_close {fuel : Nat} {o : Open} {opened : List Open} {comma : Bool}
    (after : Blank) (rest : List Char) :
    resume fuel comma (o :: opened) (after.chars ++ o.close :: rest) =
      resume fuel true opened rest := by
  have other : ¬ (comma && decide (o.close = ',')) = true := by cases o <;> simp [Open.close]
  have long : rest.length < (after.chars ++ o.close :: rest).length := by
    rw [List.length_append, List.length_cons]
    omega
  rw [resume, skipBetween, skipSpace_blank, skipSpace_cons o.close_solid]
  simp only [other, if_true, Bool.false_eq_true, if_false,
    skipBetween_fuel long (Nat.lt_succ_self rest.length)]
  rfl

private theorem resume_comma {fuel : Nat} {o : Open} {opened : List Open} (after : Blank)
    {rest behind : List Char} (key : skipKey o rest = .ok behind) :
    resume fuel true (o :: opened) (after.chars ++ ',' :: rest) =
      skipFrom fuel (o :: opened) behind := by
  rw [resume, skipBetween, skipSpace_blank, skipSpace_cons (by decide)]
  simp only [Bool.true_and, decide_true, if_true, key]
  rfl

private theorem resume_first {fuel : Nat} {o : Open} {opened : List Open}
    {text rest behind : List Char}
    {c : Char} (front : skipSpace text = c :: rest) (other : c ≠ o.close)
    (key : skipKey o (c :: rest) = .ok behind) :
    resume fuel false (o :: opened) text = skipFrom fuel (o :: opened) behind := by
  rw [resume, skipBetween, front]
  simp only [Bool.false_and, Bool.false_eq_true, if_false, other, key]
  rfl

private theorem isBoundary_following (after : Blank) (entries : List Entry) (o : Open)
    (rest : List Char) :
    IsBoundary (after.chars ++ (following (entries.map Entry.text) ++ o.close :: rest)) := by
  refine .blank_append after ?_
  cases entries with
  | nil => cases o <;> simp [IsBoundary, following, Open.close]
  | cons => exact isBoundary_comma _

private theorem resume_following {o : Open} {entries : List Entry}
    (each : ∀ e ∈ entries, e.IsIn o ∧ Skips e.value) (after : Blank) :
    ∃ n ≤ (following (entries.map Entry.text)).length, ∀ (fuel : Nat) (opened : List Open)
      (rest : List Char), resume (n + fuel) true (o :: opened)
        (after.chars ++ (following (entries.map Entry.text) ++ o.close :: rest)) =
          resume fuel true opened rest := by
  induction entries generalizing after with
  | nil =>
    refine ⟨0, Nat.zero_le _, ?_⟩
    intro fuel opened rest
    rw [Nat.zero_add]
    exact resume_close after rest
  | cons e entries ih =>
    obtain ⟨⟨within, n, fits, skips⟩, others⟩ := List.forall_mem_cons.mp each
    obtain ⟨m, less, behind⟩ := ih others e.after
    refine ⟨n + m, ?_, ?_⟩
    · have shorter := within.length_le
      simp only [List.map_cons, following, List.flatMap_cons, List.length_append,
        List.length_cons] at less ⊢
      omega
    · intro fuel opened rest
      obtain ⟨b, key⟩ := within.key (following (entries.map Entry.text) ++ o.close :: rest)
      have text : after.chars ++ (following ((e :: entries).map Entry.text) ++ o.close :: rest) =
          after.chars ++
            ',' :: (e.text ++ (following (entries.map Entry.text) ++ o.close :: rest)) := by
        simp [following]
      rw [text, resume_comma after key, Nat.add_assoc,
        skips _ _ b _ (isBoundary_following e.after entries o rest)]
      exact behind fuel opened rest

def Open.mark : Open → Char
  | .array => '['
  | .object => '\x7b'

private theorem skipFrom_mark (o : Open) (fuel : Nat) (opened : List Open) (before : Blank)
    (rest : List Char) : skipFrom (fuel + 1) opened (before.chars ++ o.mark :: rest) =
      resume fuel false (o :: opened) rest := by
  rw [skipFrom, skipSpace_blank]
  cases o <;> rfl

private theorem skips_container {o : Open} {entries : List Entry} (fill : Blank)
    (each : ∀ e ∈ entries, e.IsIn o ∧ Skips e.value) :
    Skips (o.mark :: (enclosed fill (entries.map Entry.text) ++ [o.close])) := by
  cases entries with
  | nil =>
    refine ⟨1, by simp, ?_⟩
    intro fuel opened before rest _
    have text : o.mark :: (enclosed fill [] ++ [o.close]) ++ rest =
        o.mark :: (fill.chars ++ o.close :: rest) := by
      simp [enclosed]
    rw [List.map_nil, text, Nat.add_comm, skipFrom_mark]
    exact resume_close fill rest
  | cons e entries =>
    obtain ⟨⟨within, n, fits, skips⟩, others⟩ := List.forall_mem_cons.mp each
    obtain ⟨m, less, behind⟩ := resume_following others e.after
    refine ⟨1 + n + m, ?_, ?_⟩
    · have shorter := within.length_le
      simp only [List.map_cons, enclosed, List.length_append, List.length_cons]
      omega
    · intro fuel opened before rest _
      obtain ⟨c, more, front, other, b, key⟩ :=
        within.front (following (entries.map Entry.text) ++ o.close :: rest)
      have text : o.mark :: (enclosed fill ((e :: entries).map Entry.text) ++ [o.close]) ++ rest =
          o.mark :: (e.text ++ (following (entries.map Entry.text) ++ o.close :: rest)) := by
        simp [enclosed]
      have fuels : 1 + n + m + fuel = n + (m + fuel) + 1 := by omega
      rw [text, fuels, skipFrom_mark, resume_first front other key,
        skips _ _ b _ (isBoundary_following e.after entries o rest)]
      exact behind fuel opened rest

end Containers

section Values

def Padded.entry (p : Padded (List Char)) : Entry := ⟨p.chars id, p.value, p.after⟩

def MemberText.entry (m : MemberText (List Char)) : Entry := ⟨m.chars id, m.slot.value, m.slot.after⟩

private theorem Padded.entry_isIn {p : Padded (List Char)} (sound : IsValue p.value) :
    p.entry.IsIn .array := by
  obtain ⟨c, more, value, solid, bracket, -⟩ := sound.exists_cons
  have text : ∀ rest, p.chars id ++ rest = p.before.chars ++ (p.value ++ (p.after.chars ++ rest)) := by
    simp [Padded.chars]
  refine { length_le := ?_, key := ?_, front := ?_ }
  · simp [Padded.entry, Padded.chars]
    omega
  · intro rest
    exact ⟨p.before, congrArg Except.ok (text rest)⟩
  · intro rest
    refine ⟨c, more ++ (p.after.chars ++ rest), ?_, bracket, Blank.none, ?_⟩
    · rw [entry, text, skipSpace_blank, value, List.cons_append, skipSpace_cons solid]
    · rw [entry, value]
      rfl

private theorem skipKey_quoted (name : List Glyph) (between : Blank) (rest : List Char) :
    skipKey .object (Glyph.quoted name ++ (between.chars ++ ':' :: rest)) = .ok rest := by
  have text : Glyph.quoted name ++ (between.chars ++ ':' :: rest) =
      '"' :: (Glyph.spelled name ++ '"' :: (between.chars ++ ':' :: rest)) := by
    simp [Glyph.quoted]
  have enough : (Glyph.spelled name).length ≤
      (Glyph.spelled name ++ '"' :: (between.chars ++ ':' :: rest)).length := by
    rw [List.length_append]
    exact Nat.le_add_right _ _
  rw [text, skipKey, skipSpace_cons (by decide)]
  simp only [if_true, skipString_spelled name _ enough, bind, Except.bind, skipSpace_blank,
    skipSpace_cons (c := ':') (by decide)]

private theorem MemberText.entry_isIn (m : MemberText (List Char)) : m.entry.IsIn .object := by
  have text : ∀ rest, m.chars id ++ rest = m.before.chars ++ (Glyph.quoted m.name ++
      (m.between.chars ++ ':' :: (m.slot.before.chars ++ (m.slot.value ++
        (m.slot.after.chars ++ rest))))) := by
    simp [MemberText.chars, Padded.chars]
  have blank : ∀ rest, skipKey .object (m.before.chars ++ rest) = skipKey .object rest := by
    intro rest
    simp only [skipKey, skipSpace_blank]
  refine { length_le := ?_, key := ?_, front := ?_ }
  · simp [MemberText.entry, MemberText.chars, Padded.chars]
    omega
  · intro rest
    refine ⟨m.slot.before, ?_⟩
    rw [entry, text, blank, skipKey_quoted]
  · intro rest
    refine ⟨'"', (Glyph.spelled m.name ++ ['"']) ++ (m.between.chars ++ ':' ::
      (m.slot.before.chars ++ (m.slot.value ++ (m.slot.after.chars ++ rest)))), ?_, by decide,
      m.slot.before, ?_⟩
    · rw [entry, text, skipSpace_blank, Glyph.quoted, List.cons_append,
        skipSpace_cons (by decide)]
    · exact skipKey_quoted m.name m.between _

private theorem IsValue.skips {value : List Char} (sound : IsValue value) : Skips value := by
  induction sound with
  | word known => exact skips_word known
  | number n => exact skips_numeral n
  | string glyphs => exact skips_quoted glyphs
  | array a items ih =>
    have each : ∀ e ∈ a.items.map Padded.entry, e.IsIn .array ∧ Skips e.value := by
      intro e member
      obtain ⟨p, there, rfl⟩ := List.mem_map.mp member
      exact ⟨Padded.entry_isIn (items p there), ih p there⟩
    have skips := skips_container a.fill each
    rwa [List.map_map] at skips
  | object o members ih =>
    have each : ∀ e ∈ o.members.map MemberText.entry, e.IsIn .object ∧ Skips e.value := by
      intro e member
      obtain ⟨m, there, rfl⟩ := List.mem_map.mp member
      exact ⟨m.entry_isIn, ih m there⟩
    have skips := skips_container o.fill each
    rwa [List.map_map] at skips

theorem skipValue_value {value : List Char} (sound : IsValue value) (before : Blank)
    {rest : List Char} (boundary : IsBoundary rest) :
    skipValue (before.chars ++ (value ++ rest)) = .ok rest := by
  obtain ⟨n, fits, skips⟩ := sound.skips
  have long : n ≤ (before.chars ++ (value ++ rest)).length := by
    simp only [List.length_append]
    omega
  obtain ⟨fuel, enough⟩ := Nat.exists_eq_add_of_le (Nat.le_succ_of_le long)
  rw [skipValue, ← Nat.succ_eq_add_one, enough, skips fuel [] before rest boundary]
  rfl

end Values

end Intake.Json
