import Intake.Proofs.Decoder.Settling
import Intake.Relational.Source

set_option autoImplicit false

/-!
Two secrets that differ only in the password. What is made of the one is made of the other, up to the
password itself, as long as the values of the two do not show in a message: texts that can be read,
containers, and numbers that are the same number.
-/

namespace Intake

open Intake.Json Intake.Decoder Intake.Text

namespace Json

inductive ValueType where
  | null
  | bool
  | number
  | string
  | array
  | object
  deriving DecidableEq, Repr

def typeOf (value : List Char) : ValueType :=
  match value.head? with
  | some 'n' => .null
  | some 't' => .bool
  | some 'f' => .bool
  | some '"' => .string
  | some '[' => .array
  | some '\x7b' => .object
  | _ => .number

private theorem IsValue.of_typeOf {value : List Char} (sound : IsValue value) :
    match typeOf value with
    | .null => value = ['n', 'u', 'l', 'l']
    | .bool => value = ['t', 'r', 'u', 'e'] ∨ value = ['f', 'a', 'l', 's', 'e']
    | .number => ∃ n : Numeral, value = n.chars
    | .string => ∃ glyphs, value = Glyph.quoted glyphs
    | .array => ∃ more, value = '[' :: more
    | .object => ∃ more, value = '\x7b' :: more := by
  cases sound with
  | word known =>
    simp only [valueWords, List.mem_cons, List.not_mem_nil, or_false] at known
    rcases known with rfl | rfl | rfl
    · rfl
    · exact .inl rfl
    · exact .inr rfl
  | number n =>
    have number : typeOf n.chars = .number := by
      obtain ⟨c, more, chars, minus | digit⟩ := n.exists_cons
      · rw [chars, minus]
        rfl
      · rw [chars, typeOf, List.head?_cons]
        split
        all_goals first
          | rfl
          | next same => exact absurd (Option.some.inj same) (ne_of_isDigit digit (by decide))
    rw [number]
    exact ⟨n, rfl⟩
  | string glyphs => exact ⟨glyphs, rfl⟩
  | array a items => exact ⟨_, rfl⟩
  | object o members => exact ⟨_, rfl⟩

section Lines

private theorem ne_newline_of_hexValue? {c : Char} {n : Nat} (known : Digits.hexValue? c = some n) :
    '\n' ≠ c := by
  rintro rfl
  have unknown : Digits.hexValue? '\n' = none := rfl
  exact Option.some_ne_none n (known.symm.trans unknown)

private theorem newline_notMem_chars (g : Glyph) : '\n' ∉ g.chars := by
  cases g with
  | plain c allowed =>
    have other : '\n' ≠ c := by
      rintro rfl
      exact absurd allowed.2.2 (by decide)
    simpa [Glyph.chars] using other
  | short letter meant known =>
    have other : '\n' ≠ letter := by
      rintro rfl
      have unknown : shortEscape '\n' = none := rfl
      exact Option.some_ne_none meant (known.symm.trans unknown)
    simpa [Glyph.chars] using other
  | hex a b c d bits known =>
    obtain ⟨i, one, known⟩ := Option.bind_eq_some_iff.mp known
    obtain ⟨j, two, known⟩ := Option.bind_eq_some_iff.mp known
    obtain ⟨k, three, known⟩ := Option.bind_eq_some_iff.mp known
    obtain ⟨l, four, -⟩ := Option.bind_eq_some_iff.mp known
    simp [Glyph.chars, ne_newline_of_hexValue? one, ne_newline_of_hexValue? two,
      ne_newline_of_hexValue? three, ne_newline_of_hexValue? four]

private theorem newline_notMem_quoted (glyphs : List Glyph) : '\n' ∉ Glyph.quoted glyphs := by
  have inside : '\n' ∉ Glyph.spelled glyphs := by
    intro there
    obtain ⟨g, -, there⟩ := List.mem_flatMap.mp there
    exact newline_notMem_chars g there
  simp [Glyph.quoted, inside]

private theorem newline_notMem_run (run : DigitRun) : '\n' ∉ run.chars := fun there =>
  absurd (run.digits _ there) (by decide)

private theorem newline_notMem_numeral (n : Numeral) : '\n' ∉ n.chars := by
  have sign : '\n' ∉ n.signChars := by
    rw [Numeral.signChars]
    split <;> simp
  have fraction : '\n' ∉ n.fractionChars := by
    rw [Numeral.fractionChars]
    cases n.fraction with
    | none => simp
    | some run => simp [newline_notMem_run run]
  have exponent : '\n' ∉ n.exponentChars := by
    rw [Numeral.exponentChars]
    cases n.exponent with
    | none => simp
    | some e =>
      rcases e.letter_eq with letter | letter <;> rcases e.sign_eq with plus | plus | plus <;>
        simp [letter, plus, newline_notMem_run e.run]
  simp only [Numeral.chars, List.mem_append, not_or]
  exact ⟨sign, newline_notMem_run n.whole, fraction, exponent⟩

end Lines

end Json

namespace Relational

/-- A secret as a text: an object with a member for the password, its value left open, among
others. -/
structure SecretText where
  before : Blank
  front : List (MemberText ValueText)
  password : MemberText Unit
  back : List (MemberText ValueText)
  after : Blank
  named : Glyph.text? password.name = some "password"

namespace SecretText

def members (s : SecretText) (value : ValueText) : List (MemberText ValueText) :=
  s.front ++ s.password.map (fun _ => value) :: s.back

def chars (s : SecretText) (value : ValueText) : List Char :=
  s.before.chars ++ (ObjectText.chars Subtype.val ⟨Blank.none, s.members value⟩ ++ s.after.chars)

end SecretText

/-- Two values have the same type and the same number of bytes. -/
structure Resembles (value other : ValueText) : Prop where
  type_eq : typeOf value.val = typeOf other.val
  size_eq : (String.ofList value.val).utf8ByteSize = (String.ofList other.val).utf8ByteSize

/-- Two values do not show where they are refused: texts can be read, and numbers are the same. -/
structure IsUnseen (value other : ValueText) : Prop where
  texts : typeOf value.val = .string →
    (∃ s, IsContent value.val s) ∧ ∃ s, IsContent other.val s
  numbers : typeOf value.val = .number →
    ∃ number, signedNumber value.val = .ok (number, []) ∧ signedNumber other.val = .ok (number, [])

/-- What the decoder of texts makes of two values. -/
inductive Twins (levels : Nat) (value other : List Char) : Prop where
  | texts {s t : String} (first : verdict (Decoder.string.ofText levels) value = .ok s)
      (second : verdict (Decoder.string.ofText levels) other = .ok t)
      (level : ∀ p : Position, value.foldl Position.step p = other.foldl Position.step p)
  /-- Both are refused in front of the value. -/
  | containers {cause : Cause}
      (first : verdict (Decoder.string.ofText levels) value = .error ⟨cause, value, some 0⟩)
      (second : verdict (Decoder.string.ofText levels) other = .error ⟨cause, other, some 0⟩)
  | scalars {cause : Cause}
      (first : verdict (Decoder.string.ofText levels) value = .error ⟨cause, [], some 0⟩)
      (second : verdict (Decoder.string.ofText levels) other = .error ⟨cause, [], some 0⟩)
      (level : ∀ p : Position, value.foldl Position.step p = other.foldl Position.step p)

section Verdicts

variable {levels : Nat} {value : List Char}

private theorem verdict_array (more : List Char) :
    verdict (Decoder.string.ofText levels) ('[' :: more) =
      .error ⟨.mismatch (.invalidType .sequence "a string"), '[' :: more, some 0⟩ := rfl

private theorem verdict_object (more : List Char) :
    verdict (Decoder.string.ofText levels) ('\x7b' :: more) =
      .error ⟨.mismatch (.invalidType .map "a string"), '\x7b' :: more, some 0⟩ := rfl

private theorem verdict_number {n : Numeral} {number : JsonNumber}
    (read : signedNumber n.chars = .ok (number, [])) :
    verdict (Decoder.string.ofText levels) n.chars =
      .error ⟨.mismatch (.invalidType (.number number) "a string"), [], some 0⟩ := by
  have scalar := readScalar_numeral n []
  have solid := (IsValue.number n).skipSpace_append []
  rw [List.append_nil] at scalar solid
  rw [read] at scalar
  simp only [verdict, Decoder.string, Decoder.scalar, scalarOfText, solid, scalar]
  simp only [Except.map, mistyped, scalar]
  rfl

private theorem verdict_content {s : String} (content : IsContent value s) :
    verdict (Decoder.string.ofText levels) value = .ok s := by
  obtain ⟨glyphs, rfl, text⟩ := content
  have read := reads_string_quoted levels glyphs Blank.none [] isBoundary_nil
  rw [text, List.append_nil] at read
  rw [verdict]
  cases result : Decoder.string.ofText levels (Glyph.quoted glyphs) with
  | error stop =>
    have refused := read.symm.trans (congrArg Except.toOption result)
    simp [Except.toOption] at refused
  | ok r =>
    have found := read.symm.trans (congrArg Except.toOption result)
    rw [← Option.some.inj found]
    rfl

end Verdicts

private theorem level_of_size {value other : List Char} (single : '\n' ∉ value)
    (also : '\n' ∉ other)
    (size : (String.ofList value).utf8ByteSize = (String.ofList other).utf8ByteSize)
    (p : Position) :
    value.foldl Position.step p = other.foldl Position.step p := by
  rw [foldl_step single, foldl_step also, size]

private theorem twins_of_unseen (levels : Nat) {value other : ValueText}
    (resembles : Resembles value other)
    (unseen : IsUnseen value other) : value = other ∨ Twins levels value.val other.val := by
  have first := value.property.of_typeOf
  have second := other.property.of_typeOf
  rw [← resembles.type_eq] at second
  have size := resembles.size_eq
  cases type : typeOf value.val with
  | null =>
    rw [type] at first second
    exact .inl (Subtype.ext (first.trans second.symm))
  | bool =>
    rw [type] at first second
    refine .inl (Subtype.ext ?_)
    rcases first with first | first <;> rcases second with second | second <;>
      rw [first, second] at size ⊢
    all_goals exact absurd size (by decide)
  | string =>
    rw [type] at first second
    obtain ⟨⟨s, here⟩, t, there⟩ := unseen.texts type
    obtain ⟨glyphs, chars⟩ := first
    obtain ⟨others, also⟩ := second
    refine .inr (.texts (verdict_content here) (verdict_content there) (level_of_size ?_ ?_ size))
    · rw [chars]
      exact newline_notMem_quoted glyphs
    · rw [also]
      exact newline_notMem_quoted others
  | number =>
    rw [type] at first second
    obtain ⟨number, here, there⟩ := unseen.numbers type
    obtain ⟨n, chars⟩ := first
    obtain ⟨m, also⟩ := second
    rw [chars, also] at size ⊢
    rw [chars] at here
    rw [also] at there
    exact .inr (.scalars (verdict_number here) (verdict_number there)
      (level_of_size (newline_notMem_numeral n) (newline_notMem_numeral m) size))
  | array =>
    rw [type] at first second
    obtain ⟨more, chars⟩ := first
    obtain ⟨others, also⟩ := second
    rw [chars, also]
    exact .inr (.containers (verdict_array more) (verdict_array others))
  | object =>
    rw [type] at first second
    obtain ⟨more, chars⟩ := first
    obtain ⟨others, also⟩ := second
    rw [chars, also]
    exact .inr (.containers (verdict_object more) (verdict_object others))

/-- Two stops in texts that differ in a value: in front of it, at it, or behind it at the same
place. -/
inductive StopsAlike (value other behind : List Char) : Stop → Stop → Prop where
  | front (cause : Cause) (left : List Char) {ahead : Option Nat} (solid : skipSpace left ≠ [])
      (near : ∀ n ∈ ahead, n ≤ 1) :
      StopsAlike value other behind ⟨cause, left ++ (value ++ behind), ahead⟩
        ⟨cause, left ++ (other ++ behind), ahead⟩
  | value (cause : Cause) :
      StopsAlike value other behind ⟨cause, value ++ behind, some 0⟩ ⟨cause, other ++ behind, some 0⟩
  | behind {stop : Stop} (inside : stop.rest.length ≤ behind.length)
      (level : ∀ p : Position, value.foldl Position.step p = other.foldl Position.step p) :
      StopsAlike value other behind stop stop

private theorem StopsAlike.fault_eq {value other behind : List Char} {a b : Stop}
    (alike : StopsAlike value other behind a b) (front tail : List Char) :
    (closeStop (a.extend tail)).fault (front ++ (value ++ (behind ++ tail))) =
      (closeStop (b.extend tail)).fault (front ++ (other ++ (behind ++ tail))) := by
  cases alike with
  | front cause left solid near =>
    obtain ⟨rest, n, near, closed⟩ := exists_closeStop cause solid near
    simp only [Stop.extend, List.append_assoc, closed]
    exact fault_append cause front rest near _ _
  | value cause =>
    simp only [Stop.extend, closeStop_of_ahead, List.append_assoc]
    exact fault_append cause front [] (.inl rfl) _ _
  | behind inside level =>
    refine fault_append_append _ front level ?_
    have shorter := closeStop_length_le (a.extend tail)
    simp only [Stop.extend, List.length_append] at shorter ⊢
    omega

namespace Credentials

def fields := Fields.cons "host" Decoder.string none
  (.cons "username" Decoder.string none (.cons "password" Decoder.string none .nil))

abbrev Slots := Option String × Option String × Option String × Unit

/-- What is made of two texts: the same, up to the password, or stops that are alike. -/
inductive OutcomesAlike (value other behind : List Char) :
    Except Stop Slots → Except Stop Slots → Prop where
  | ok (host username : Option String) (p q : String)
      (level : ∀ p : Position, value.foldl Position.step p = other.foldl Position.step p) :
      OutcomesAlike value other behind (.ok (host, username, some p, ()))
        (.ok (host, username, some q, ()))
  | error {a b : Stop} (alike : StopsAlike value other behind a b) :
      OutcomesAlike value other behind (.error a) (.error b)

private theorem verdict_map {α β : Type} (f : α → β) (reader : TextReader α) (value : List Char) :
    verdict (f <$> reader : TextReader β) value = (verdict reader value).map f := by
  show Except.map Prod.fst (reader value >>= fun r => pure (f r.1, r.2)) = _
  rw [verdict]
  cases reader value <;> rfl

private theorem memberOutcome_behind (levels : Nat) (host username : Option String) (p q : String)
    (m : MemberText ValueText) :
    (∃ stop, memberOutcome fields levels (host, username, some p, ()) m = .error stop ∧
      memberOutcome fields levels (host, username, some q, ()) m = .error stop) ∨
    ∃ host' username',
      memberOutcome fields levels (host, username, some p, ()) m =
        .ok (host', username', some p, ()) ∧
      memberOutcome fields levels (host, username, some q, ()) m =
        .ok (host', username', some q, ()) := by
  simp only [memberOutcome]
  cases Glyph.meaning m.name with
  | error stop => exact .inl ⟨_, rfl, rfl⟩
  | ok chars =>
    simp only [fields, Fields.member]
    by_cases isHost : String.ofList chars = "host"
    · simp only [if_pos isHost]
      cases host with
      | some s => exact .inl ⟨_, rfl, rfl⟩
      | none =>
        simp only [verdict_map]
        cases verdict (Decoder.string.ofText levels) m.slot.value.val with
        | error stop => exact .inl ⟨stop, rfl, rfl⟩
        | ok s => exact .inr ⟨some s, username, rfl, rfl⟩
    · by_cases isUsername : String.ofList chars = "username"
      · simp only [if_neg isHost, if_pos isUsername]
        cases username with
        | some s => exact .inl ⟨_, rfl, rfl⟩
        | none =>
          simp only [verdict_map]
          cases verdict (Decoder.string.ofText levels) m.slot.value.val with
          | error stop => exact .inl ⟨stop, rfl, rfl⟩
          | ok s => exact .inr ⟨host, some s, rfl, rfl⟩
      · simp only [if_neg isHost, if_neg isUsername]
        by_cases isPassword : String.ofList chars = "password"
        · simp only [if_pos isPassword]
          exact .inl ⟨_, rfl, rfl⟩
        · simp only [if_neg isPassword]
          exact .inr ⟨host, username, rfl, rfl⟩

private theorem isExact_fields (levels : Nat) (m : MemberText ValueText) (key : String) :
    fields.IsExact levels key m.slot.value.val := by
  have text : Decoder.IsExact (Decoder.string.ofText levels) m.slot.value.val :=
    isExact_scalarOfText m.slot.value.property
  exact ⟨fun _ => text, fun _ => text, fun _ => text, trivial⟩

private theorem membersOutcome_behind (levels : Nat) (host username : Option String) (p q : String)
    (lead : Option Blank) (fill : Blank) (ms : List (MemberText ValueText)) :
    (∃ stop, membersOutcome fields levels fill (host, username, some p, ()) ms = .error stop ∧
      membersOutcome fields levels fill (host, username, some q, ()) ms = .error stop ∧
      stop.rest.length ≤ (remaining lead fill (ms.map (MemberText.chars Subtype.val))).length) ∨
    ∃ host' username',
      membersOutcome fields levels fill (host, username, some p, ()) ms =
        .ok (host', username', some p, ()) ∧
      membersOutcome fields levels fill (host, username, some q, ()) ms =
        .ok (host', username', some q, ()) := by
  induction ms generalizing host username lead with
  | nil => exact .inr ⟨host, username, rfl, rfl⟩
  | cons m ms ih =>
    have length := congrArg List.length (remaining_member Subtype.val lead fill m ms [])
    simp only [List.append_nil, List.length_append, List.length_cons] at length
    simp only [membersOutcome]
    obtain ⟨stop, first, second⟩ | ⟨host', username', first, second⟩ :=
      memberOutcome_behind levels host username p q m
    · have inside := (isIn_of_memberOutcome (isExact_fields levels m) first).length_le
      simp only [first, second]
      refine .inl ⟨_, rfl, rfl, ?_⟩
      simp only [behindName, Stop.extend, List.length_append, List.length_cons] at inside ⊢
      omega
    · simp only [first, second]
      obtain ⟨stop, refused, also, inside⟩ | done := ih host' username' (some m.slot.after)
      · exact .inl ⟨stop, refused, also, by omega⟩
      · exact .inr done

private theorem exists_remaining (lead : Option Blank) (fill : Blank)
    (front : List (MemberText ValueText))
    (password : MemberText Unit) (back : List (MemberText ValueText)) :
    ∃ left, skipSpace left ≠ [] ∧ ∀ value : ValueText,
      remaining lead fill ((front ++ password.map (fun _ => value) :: back).map
          (MemberText.chars Subtype.val)) =
        left ++ (value.val ++
          remaining (some password.slot.after) fill (back.map (MemberText.chars Subtype.val))) := by
  induction front generalizing lead with
  | nil =>
    refine ⟨leadChars lead ++ (password.before.chars ++ (Glyph.quoted password.name ++
      (password.between.chars ++ ':' :: password.slot.before.chars))), ?_, fun value => ?_⟩
    · exact skipSpace_ne_nil (c := ':') (by simp) (by decide)
    · have text := remaining_member Subtype.val lead fill (password.map fun _ => value) back []
      simp only [List.append_nil] at text
      rw [List.nil_append, text]
      simp [MemberText.map, Padded.map]
  | cons m front ih =>
    obtain ⟨left, solid, same⟩ := ih (some m.slot.after)
    refine ⟨leadChars lead ++ (m.before.chars ++ (Glyph.quoted m.name ++ (m.between.chars ++
      ':' :: (m.slot.before.chars ++ (m.slot.value.val ++ left))))), ?_, fun value => ?_⟩
    · exact skipSpace_ne_nil (c := ':') (by simp) (by decide)
    · have text := remaining_member Subtype.val lead fill m
        (front ++ password.map (fun _ => value) :: back) []
      simp only [List.append_nil] at text
      rw [List.cons_append, text, same value]
      simp

section Password

variable {levels : Nat} {password : MemberText Unit}

private theorem memberOutcome_again (named : Glyph.text? password.name = some "password")
    (host username : Option String) (s : String) (value : ValueText) :
    memberOutcome fields levels (host, username, some s, ()) (password.map fun _ => value) =
      .error (.pending (.duplicateField "password") (behindName (password.map fun _ => value))) := by
  obtain ⟨chars, meant, name⟩ := Glyph.text?_eq_some_iff.mp named
  rw [memberOutcome, show (password.map fun _ => value).name = password.name from rfl, meant]
  simp only [name]
  rfl

private theorem memberOutcome_password (named : Glyph.text? password.name = some "password")
    (host username : Option String) (value : ValueText) :
    memberOutcome fields levels (host, username, none, ()) (password.map fun _ => value) =
      (verdict (Decoder.string.ofText levels) value.val).map
        fun s => (host, username, some s, ()) := by
  obtain ⟨chars, meant, name⟩ := Glyph.text?_eq_some_iff.mp named
  rw [memberOutcome, show (password.map fun _ => value).name = password.name from rfl, meant]
  simp only [name]
  have read : fields.member (fun d => d.ofText levels) "password" (host, username, none, ()) =
      .fresh ((fun s => (host, s)) <$> (fun s => (username, s)) <$>
        (fun s => (some s, ())) <$> Decoder.string.ofText levels : TextReader Slots) := rfl
  have own : (password.map fun _ => value).slot.value = value := rfl
  simp only [read, verdict_map, own]
  cases verdict (Decoder.string.ofText levels) value.val <;> rfl

/-- Whatever stands around the password, what is made of two secrets is alike. -/
theorem outcomesAlike_of_twins {value other : ValueText}
    (twins : Twins levels value.val other.val)
    (named : Glyph.text? password.name = some "password") (fill : Blank)
    (front back : List (MemberText ValueText)) (slots : Slots) :
    OutcomesAlike value.val other.val
      (remaining (some password.slot.after) fill (back.map (MemberText.chars Subtype.val)))
      (membersOutcome fields levels fill slots (front ++ password.map (fun _ => value) :: back))
      (membersOutcome fields levels fill slots (front ++ password.map (fun _ => other) :: back)) := by
  induction front generalizing slots with
  | nil =>
    obtain ⟨host, username, slot, ⟨⟩⟩ := slots
    simp only [List.nil_append, membersOutcome]
    cases slot with
    | some s =>
      simp only [memberOutcome_again named]
      have solid : skipSpace (password.between.chars ++ ':' :: password.slot.before.chars) ≠ [] :=
        skipSpace_ne_nil (c := ':') (by simp) (by decide)
      have text : ∀ value : ValueText, behindName (password.map fun _ => value) =
          (password.between.chars ++ ':' :: password.slot.before.chars) ++ value.val := by
        intro value
        simp [behindName, MemberText.map, Padded.map]
      simp only [text, Stop.pending, Stop.extend, List.append_assoc _ value.val,
        List.append_assoc _ other.val]
      exact .error (.front _ _ solid (by simp))
    | none =>
      simp only [memberOutcome_password named]
      cases twins with
      | texts first second level =>
        simp only [first, second, Except.map]
        rename_i p q
        obtain ⟨stop, refused, also, inside⟩ | ⟨host', username', done, also⟩ :=
          membersOutcome_behind levels host username p q (some password.slot.after) fill back
        · rw [refused, also]
          exact .error (.behind inside level)
        · rw [done, also]
          exact .ok host' username' p q level
      | containers first second =>
        simp only [first, second, Except.map]
        exact .error (.value _)
      | scalars first second level =>
        simp only [first, second, Except.map]
        exact .error (.behind (Nat.le_refl _) level)
  | cons m front ih =>
    simp only [List.cons_append, membersOutcome]
    cases step : memberOutcome fields levels slots m with
    | ok slots => exact ih slots
    | error stop =>
      obtain ⟨left, solid, same⟩ := exists_remaining (some m.slot.after) fill front password back
      have near := (isIn_of_memberOutcome (isExact_fields levels m) step).near
      have both := skipSpace_append_ne_nil stop.rest solid
      simp only [same, Stop.extend, ← List.append_assoc stop.rest left]
      exact .error (.front _ _ both near)

end Password

def ofFields (r : String × String × String × Unit) : Credentials := ⟨r.1, r.2.1, r.2.2.1⟩

private theorem decoder_eq :
    decoder = record (.named "RawCredentials" 3) fields fun r => .ok (ofFields r) := rfl

def withoutPassword (c : Credentials) : Credentials := { c with password := "" }

private theorem parse_alike (s : SecretText) {value other : ValueText}
    (twins : Twins 126 value.val other.val) :
    (decoder.parse (String.ofList (s.chars value))).map withoutPassword =
      (decoder.parse (String.ofList (s.chars other))).map withoutPassword := by
  have openForm : (Form.named "RawCredentials" 3).isClosed = false := rfl
  have read : ∀ value : ValueText, decoder.parse (String.ofList (s.chars value)) =
      documentOf fields ofFields (s.chars value) s.after.chars
        (membersOutcome fields 126 Blank.none fields.blank (s.members value)) := by
    intro value
    rw [decoder_eq]
    exact record_parse openForm ofFields (o := ⟨Blank.none, s.members value⟩)
      (fun m _ => isExact_fields 126 m) s.before s.after rfl
  obtain ⟨left, -, same⟩ := exists_remaining none Blank.none s.front s.password s.back
  have text : ∀ value : ValueText, s.chars value = (s.before.chars ++ '\x7b' :: left) ++ (value.val ++
      (remaining (some s.password.slot.after) Blank.none
        (s.back.map (MemberText.chars Subtype.val)) ++ '\x7d' :: s.after.chars)) := by
    intro value
    simp only [SecretText.chars, ObjectText.chars, enclosed_eq_remaining]
    rw [SecretText.members, same value]
    simp
  have alike := outcomesAlike_of_twins twins s.named Blank.none s.front s.back fields.blank
  rw [read value, read other, SecretText.members, SecretText.members]
  generalize membersOutcome fields 126 Blank.none fields.blank
    (s.front ++ s.password.map (fun _ => value) :: s.back) = first at alike ⊢
  generalize membersOutcome fields 126 Blank.none fields.blank
    (s.front ++ s.password.map (fun _ => other) :: s.back) = second at alike ⊢
  cases alike with
  | error alike =>
    simp only [documentOf, Except.map, text]
    exact congrArg Except.error (alike.fault_eq _ _)
  | ok host username p q level =>
    have fault : ∀ m : Mismatch, Stop.fault (s.chars value) ⟨.mismatch m, s.after.chars, some 0⟩ =
        Stop.fault (s.chars other) ⟨.mismatch m, s.after.chars, some 0⟩ := by
      intro m
      rw [text, text]
      refine fault_append_append _ _ level ?_
      simp only [List.length_append, List.length_cons]
      omega
    cases host with
    | none => exact congrArg Except.error (fault _)
    | some host =>
      cases username with
      | none => exact congrArg Except.error (fault _)
      | some username => rfl

theorem ofSecret_alike (s : SecretText) {value other : ValueText}
    (resembles : Resembles value other) (unseen : IsUnseen value other) :
    (ofSecret (String.ofList (s.chars value))).map withoutPassword =
      (ofSecret (String.ofList (s.chars other))).map withoutPassword := by
  obtain rfl | twins := twins_of_unseen 126 resembles unseen
  · rfl
  · have alike := parse_alike s twins
    rw [ofSecret, ofSecret]
    cases first : decoder.parse (String.ofList (s.chars value)) <;>
      cases second : decoder.parse (String.ofList (s.chars other)) <;>
      rw [first, second] at alike
    · rw [Except.error.inj alike]
    · cases alike
    · cases alike
    · exact congrArg Except.ok (Except.ok.inj alike)

end Credentials

end Relational

end Intake
