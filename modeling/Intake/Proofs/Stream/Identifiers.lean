import Intake.Proofs.Decoder.Trees
import Intake.Proofs.Decoder.Values
import Intake.Proofs.Json.Integers
import Intake.Proofs.Stream.Normalization

set_option autoImplicit false

/-!
Details that are written as whole numbers. The record of a message with such a number is the record of
the message without it, with the characters of the number for that detail, if the number is held as a
whole number. If it is not the double next to it is kept in its place, and several numbers in one.
-/

namespace Intake.Stream

open Intake.Json Intake.Text Intake.Number Intake.Time

/-- The details of a record that a message may give as values of any kind. -/
inductive Detail where
  | transactionType
  | actorId
  | targetId
  | timestamp
  deriving DecidableEq, Repr

namespace Detail

def name : Detail → String
  | transactionType => "transaction_type"
  | actorId => "actor_id"
  | targetId => "target_id"
  | timestamp => "timestamp"

def of : Detail → AuditRecord → String
  | transactionType, r => r.transactionType
  | actorId, r => r.actorId
  | targetId, r => r.targetId
  | timestamp, r => r.timestamp

def put (text : String) : Detail → AuditRecord → AuditRecord
  | transactionType, r => { r with transactionType := text }
  | actorId, r => { r with actorId := text }
  | targetId, r => { r with targetId := text }
  | timestamp, r => { r with timestamp := text }

@[simp] private theorem of_put (d : Detail) (text : String) (r : AuditRecord) :
    d.of (d.put text r) = text := by
  cases d <;> rfl

private theorem name_ne_messageId (d : Detail) : d.name ≠ "message_id" := by
  cases d <;> decide

end Detail

/-- The text of a message with a place for a detail: the last member of its name. -/
structure OpenMessage where
  before : Blank
  front : List (MemberText ValueText)
  member : MemberText Unit
  back : List (MemberText ValueText)
  after : Blank
  detail : Detail
  named : Glyph.text? member.name = some detail.name
  last : ∀ m ∈ back, Glyph.text? m.name ≠ some detail.name

namespace OpenMessage

def around (m : OpenMessage) (members : List (MemberText ValueText)) : String :=
  String.ofList (m.before.chars ++ ((recordText members).val ++ m.after.chars))

def text (m : OpenMessage) (value : ValueText) : String :=
  m.around (m.front ++ m.member.map (fun _ => value) :: m.back)

def without (m : OpenMessage) : String := m.around (m.front ++ m.back)

end OpenMessage

namespace AuditRecord

variable {front back : List (String × Json)} {received : String}

private theorem detail?_number {name : String} (last : ∀ e ∈ back, e.1 ≠ name) (j : JsonNumber)
    (other : String) : detail? (front ++ (name, .number j) :: back) other =
      if name = other then some (String.ofList j.toChars) else detail? (front ++ back) other := by
  split
  next same =>
    subst same
    rw [detail?, member?_last last]
    rfl
  next different => rw [detail?, detail?, member?_of_ne different]

private theorem ofMembers?_number {d : Detail} (last : ∀ e ∈ back, e.1 ≠ d.name) (j : JsonNumber) :
    ofMembers? received (front ++ (d.name, .number j) :: back) =
      (ofMembers? received (front ++ back)).map (d.put (String.ofList j.toChars)) := by
  unfold ofMembers?
  simp only [detail?_number last, member?_of_ne d.name_ne_messageId]
  split
  next id _ =>
    by_cases empty : id = ""
    · simp only [empty, if_true, Option.map_none]
    · simp only [empty, if_false, Option.map_some]
      cases d <;> simp [Detail.name, Detail.put]
  next => rfl

end AuditRecord

namespace OpenMessage

variable {m : OpenMessage} {received : String} {position : Position} {r stored : AuditRecord}

private theorem toOption_parse (m : OpenMessage) (members : List (MemberText ValueText)) :
    (Json.parse (m.around members)).toOption = (members.mapM (memberOf 126)).map .object := by
  rw [← treeOf_recordText]
  exact Decoder.toOption_parse_of_reads (d := Decoder.json) (reads_treeOf 127 _) m.before m.after

private theorem ofEnvelope_around_iff {members : List (MemberText ValueText)} :
    AuditRecord.ofEnvelope received ⟨position, m.around members⟩ = .ok r ↔
      ∃ read, members.mapM (memberOf 126) = some read ∧
        AuditRecord.ofMembers? received read = some r := by
  rw [AuditRecord.ofEnvelope_eq_ok_iff, toOption_parse]
  constructor
  · rintro ⟨read, object, made⟩
    obtain ⟨_, members, same⟩ := Option.map_eq_some_iff.mp object
    obtain rfl := Json.object.inj same
    exact ⟨_, members, made⟩
  · rintro ⟨read, members, made⟩
    exact ⟨read, by rw [members]; rfl, made⟩

private theorem ofEnvelope_number_iff
    (valid : AuditRecord.ofEnvelope received ⟨position, m.without⟩ = .ok r) (n : Numeral) :
    AuditRecord.ofEnvelope received ⟨position, m.text n.asNumber⟩ = .ok stored ↔
      ∃ j, signedNumber n.chars = .ok (j, []) ∧
        m.detail.put (String.ofList j.toChars) r = stored := by
  obtain ⟨read, members, made⟩ := ofEnvelope_around_iff.mp valid
  rw [List.mapM_append] at members
  obtain ⟨before, front, members⟩ := Option.bind_eq_some_iff.mp members
  obtain ⟨after, back, same⟩ := Option.bind_eq_some_iff.mp members
  obtain rfl := Option.some.inj same
  have last := name_ne_of_mapM m.last back
  have number : ∀ j, AuditRecord.ofMembers? received (before ++ (m.detail.name, .number j) :: after) =
      some (m.detail.put (String.ofList j.toChars) r) := by
    intro j
    rw [AuditRecord.ofMembers?_number last, made, Option.map_some]
  have whole : (m.front ++ m.member.map (fun _ => n.asNumber) :: m.back).mapM (memberOf 126) =
      (signedNumber n.chars).toOption.map fun read =>
        before ++ (m.detail.name, .number read.1) :: after := by
    rw [mapM_append_cons, front, back, memberOf_map m.named, n.treeOf_asNumber]
    cases signedNumber n.chars <;> rfl
  rw [text, ofEnvelope_around_iff, whole]
  constructor
  · rintro ⟨read, members, made⟩
    obtain ⟨⟨j, rest⟩, found, rfl⟩ := Option.map_eq_some_iff.mp members
    rw [toOption_eq_some_iff] at found
    obtain rfl := Numeral.eq_nil_of_signedNumber found
    rw [number j] at made
    exact ⟨j, found, Option.some.inj made⟩
  · rintro ⟨j, found, rfl⟩
    exact ⟨_, by rw [found]; rfl, number j⟩

section Digits

variable {now : Instant} {n other : Numeral} {i k : Int}

private theorem ofEnvelopeAt_of_isWord
    (valid : AuditRecord.ofEnvelopeAt now ⟨position, m.without⟩ = .ok r)
    (whole : n.integer? = some i) (word : IsWord i) :
    AuditRecord.ofEnvelopeAt now ⟨position, m.text n.asNumber⟩ =
      .ok (m.detail.put (String.ofList n.chars) r) := by
  have read : signedNumber n.chars = .ok (.integer i, []) := by
    have alone := signedNumber_of_integer whole word.1 word.2 isBoundary_nil
    rwa [List.append_nil] at alone
  apply (ofEnvelope_number_iff valid n).mpr
  exact ⟨_, read, by rw [(toChars_eq_iff whole read).mpr word]⟩

private theorem isWord_of_kept
    (valid : AuditRecord.ofEnvelopeAt now ⟨position, m.without⟩ = .ok r)
    (whole : n.integer? = some i)
    (accepted : AuditRecord.ofEnvelopeAt now ⟨position, m.text n.asNumber⟩ = .ok stored)
    (kept : m.detail.of stored = String.ofList n.chars) : IsWord i := by
  obtain ⟨j, read, rfl⟩ := (ofEnvelope_number_iff valid n).mp accepted
  rw [Detail.of_put, String.ofList_inj] at kept
  exact (toChars_eq_iff whole read).mp kept

private theorem chars_eq_of_alike
    (valid : AuditRecord.ofEnvelopeAt now ⟨position, m.without⟩ = .ok r)
    (whole : n.integer? = some i) (word : IsWord i) (whole' : other.integer? = some k)
    (first : AuditRecord.ofEnvelopeAt now ⟨position, m.text n.asNumber⟩ = .ok stored)
    (second : AuditRecord.ofEnvelopeAt now ⟨position, m.text other.asNumber⟩ = .ok stored) :
    n.chars = other.chars := by
  have kept : m.detail.of stored = String.ofList n.chars := by
    rw [ofEnvelopeAt_of_isWord valid whole word] at first
    rw [← Except.ok.inj first, Detail.of_put]
  obtain ⟨j, read, rfl⟩ := (ofEnvelope_number_iff valid other).mp second
  rw [Detail.of_put, String.ofList_inj] at kept
  by_cases inside : IsWord k
  · rw [← kept]
    exact (toChars_eq_iff whole' read).mpr inside
  · -- The other number is held as a double, and no double is printed as a whole number.
    have inexact := isInexact_of_integer whole' inside isBoundary_nil
    rw [List.append_nil] at inexact
    cases j with
    | integer l => exact absurd read (inexact l [])
    | float x =>
      rw [Numeral.chars_of_integer whole] at kept
      exact absurd kept (FloatText.write_ne_integer x i)

end Digits

/-- The record of a message with a whole number for a detail keeps the digits of the number exactly if
the number is in the range of sixty-four bits with or without a sign, and is the record of the message
without it in all else. Such a number and any other one never give the same record. -/
theorem keepsDigits {now : Instant}
    (valid : AuditRecord.ofEnvelopeAt now ⟨position, m.without⟩ = .ok r) :
    (∀ (n : Numeral) (i : Int), n.integer? = some i →
      (IsWord i → AuditRecord.ofEnvelopeAt now ⟨position, m.text n.asNumber⟩ =
        .ok (m.detail.put (String.ofList n.chars) r)) ∧
      ((∃ stored, AuditRecord.ofEnvelopeAt now ⟨position, m.text n.asNumber⟩ = .ok stored ∧
        m.detail.of stored = String.ofList n.chars) ↔ IsWord i)) ∧
    ∀ (n other : Numeral) (i k : Int), n.integer? = some i → other.integer? = some k → IsWord i →
      ∀ stored, AuditRecord.ofEnvelopeAt now ⟨position, m.text n.asNumber⟩ = .ok stored →
        AuditRecord.ofEnvelopeAt now ⟨position, m.text other.asNumber⟩ = .ok stored →
        n.chars = other.chars := by
  refine ⟨?_, ?_⟩
  · intro n i whole
    refine ⟨ofEnvelopeAt_of_isWord valid whole, ?_, ?_⟩
    · rintro ⟨stored, accepted, kept⟩
      exact isWord_of_kept valid whole accepted kept
    · intro word
      exact ⟨_, ofEnvelopeAt_of_isWord valid whole word, Detail.of_put _ _ _⟩
  · intro n other i k whole whole' word stored first second
    exact chars_eq_of_alike valid whole word whole' first second

section Parties

def aboutActor : OpenMessage where
  before := .none
  front := [tightMember "message_id" (textValue "m")]
  member := tightMember "actor_id" ()
  back := []
  after := .none
  detail := .actorId
  named := by decide +kernel
  last := by decide +kernel

def ofActor (actor : String) : AuditRecord := ⟨"m", unknown, actor, unknown, "0.000000"⟩

/-- The largest number that keeps its digits, and the next one. -/
theorem keepsDigits_limit :
    AuditRecord.ofEnvelopeAt ⟨0, 0⟩ ⟨⟨none, none⟩, aboutActor.without⟩ = .ok (ofActor unknown) ∧
      AuditRecord.ofEnvelopeAt ⟨0, 0⟩
        ⟨⟨none, none⟩, aboutActor.text (numeralOf (2 ^ 64 - 1)).asNumber⟩ =
        .ok (ofActor (String.ofList (numeralOf (2 ^ 64 - 1)).chars)) ∧
      (¬∃ stored, AuditRecord.ofEnvelopeAt ⟨0, 0⟩
          ⟨⟨none, none⟩, aboutActor.text (numeralOf (2 ^ 64)).asNumber⟩ = .ok stored ∧
        stored.actorId = String.ofList (numeralOf (2 ^ 64)).chars) ∧
      ∀ stored, AuditRecord.ofEnvelopeAt ⟨0, 0⟩
          ⟨⟨none, none⟩, aboutActor.text (numeralOf (2 ^ 64 - 1)).asNumber⟩ = .ok stored →
        AuditRecord.ofEnvelopeAt ⟨0, 0⟩
          ⟨⟨none, none⟩, aboutActor.text (numeralOf (2 ^ 64)).asNumber⟩ ≠ .ok stored := by
  have valid : AuditRecord.ofEnvelopeAt ⟨0, 0⟩ ⟨⟨none, none⟩, aboutActor.without⟩ =
      .ok (ofActor unknown) := toOption_eq_some_iff.mp (by decide +kernel)
  obtain ⟨keeps, tells⟩ := keepsDigits valid
  refine ⟨valid, (keeps _ _ (integer?_numeralOf _)).1 (by decide), ?_, ?_⟩
  · intro kept
    have word := (keeps _ _ (integer?_numeralOf _)).2.mp kept
    revert word
    decide
  · intro stored first second
    have same := tells _ _ _ _ (integer?_numeralOf _) (integer?_numeralOf _) (by decide) stored first second
    rw [chars_numeralOf, chars_numeralOf] at same
    revert same
    decide +kernel

/-- Two actors whose numbers are next to each other have one record, in which neither number stands. -/
theorem mergesActors :
    (numeralOf (2 ^ 64)).chars = "18446744073709551616".toList ∧
    (numeralOf (2 ^ 64 + 1)).chars = "18446744073709551617".toList ∧
    ∀ i ∈ [2 ^ 64, 2 ^ 64 + 1],
      AuditRecord.ofEnvelopeAt ⟨0, 0⟩ ⟨⟨none, none⟩, aboutActor.text (numeralOf i).asNumber⟩ =
        .ok (ofActor "1.8446744073709552e+19") := by
  refine ⟨by decide +kernel, by decide +kernel, ?_⟩
  intro i there
  apply toOption_eq_some_iff.mp
  rcases List.mem_pair.mp there with rfl | rfl
  · decide +kernel
  · decide +kernel

end Parties

end OpenMessage

end Intake.Stream
