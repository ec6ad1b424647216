import Intake.Proofs.Bulk.Accounting
import Intake.Proofs.Stream.EventText

set_option autoImplicit false

/-!
What one message does to its batch. A message object that is a message leaves all others as they would
be without it, whatever its content; one that is none is the end of the whole batch, because a batch
is read as one text before any message is looked at.
-/

namespace Intake.Bulk

open Intake.Json Intake.Stream

variable {σ τ υ : Type}

namespace Writer

/-- A text is a batch that is handled with success, by the writing of these requests. -/
def HandsOver (w : Writer σ τ υ) (table received : String) (places : Places σ τ υ)
    (text : List Char) (requests : List PutRequest) : Prop :=
  ∃ batch run written, (Batch.decoder.parse (String.ofList text)).toOption = some batch ∧
    w.handle table received batch places = some run ∧ run.value.status = "success" ∧
    w.write table requests places = some written ∧ written.effects <:+: run.effects ∧
    written.places = run.places

/-- The batch is handled with success, and the requests of all other messages are written as they are
without the message at a place. -/
def Isolates (w : Writer σ τ υ) (table received : String) (places : Places σ τ υ)
    (event : EventText) (i j : Nat) : Prop :=
  ∃ before own after, w.HandsOver table received places event.chars (before ++ own ++ after) ∧
    w.HandsOver table received places (event.without i j).chars (before ++ after) ∧
    (own = [] ∨ ∃ o e, event.message? i j = some o ∧ IsEnvelope o e ∧ own = requestsOf received [e])

private theorem requestsOf_append (received : String) (before after : List Envelope) :
    requestsOf received (before ++ after) =
      requestsOf received before ++ requestsOf received after := by
  simp [requestsOf]

private theorem handsOver_of_parse {w : Writer σ τ υ} (representable : w.policy.IsRepresentable)
    (table received : String) (places : Places σ τ υ) {text : List Char} {batch : Batch}
    (parsed : (Batch.decoder.parse (String.ofList text)).toOption = some batch) :
    w.HandsOver table received places text (requestsOf received batch.envelopes) := by
  obtain ⟨runs, last, summary, -, -, -, written⟩ :=
    w.exists_write table representable (requestsOf received batch.envelopes) places
  exact ⟨batch, _, _, parsed, handle_of_write written, rfl, written, ⟨_, _, rfl⟩, rfl⟩

/-- A message leaves all others as they are exactly if the batch can be read: all its names are texts,
and this message is a message as all others are. -/
theorem handle_isolates_iff (w : Writer σ τ υ) (table received : String) (places : Places σ τ υ)
    (representable : w.policy.IsRepresentable) {event : EventText} {i j : Nat}
    {o : ObjectText ValueText} (there : event.message? i j = some o) :
    w.Isolates table received places event i j ↔ ∃ groups, event.IsReadAs groups := by
  constructor
  · rintro ⟨-, -, -, ⟨batch, -, -, parsed, -⟩, -⟩
    obtain ⟨groups, readAs, -⟩ := (event.toOption_parse batch).mp parsed
    exact ⟨groups, readAs⟩
  · rintro ⟨groups, readAs⟩
    have parsed := (event.toOption_parse _).mpr ⟨groups, readAs, rfl⟩
    obtain ⟨less, before, own, after, left, all, others, one⟩ :=
      EventText.parse_without parsed there
    have whole := handsOver_of_parse representable table received places parsed
    have rest := handsOver_of_parse representable table received places left
    rw [all, requestsOf_append, requestsOf_append] at whole
    rw [others, requestsOf_append] at rest
    refine ⟨_, requestsOf received own, _, whole, rest, ?_⟩
    obtain rfl | ⟨e, means, rfl⟩ := one
    · exact .inl rfl
    · exact .inr ⟨o, e, there, means, rfl⟩

end Writer

def messageOfValue (value : ValueText) : ObjectText ValueText :=
  ⟨.none, [tightMember "value" value]⟩

/-- A batch of a group of two messages: a record, and one that has some value for its content. -/
def recordAnd (value : ValueText) : EventText where
  before := .none
  front := []
  records := tightMember "records" ⟨.none, [tightMember "g" ⟨.none,
    [⟨.none, messageOfValue (textValue "\x7b\"message_id\": \"m1\"\x7d"), .none⟩,
      ⟨.none, messageOfValue value, .none⟩]⟩]⟩
  back := []
  after := .none
  named := show Glyph.text? (spelling "records") = some "records" by decide +kernel
  others := by simp

theorem handle_isolates_iff_braces :
    RetryPolicy.standard.IsRepresentable ∧
      (recordAnd (textValue "\x7b")).message? 0 1 =
        some (messageOfValue (textValue "\x7b")) ∧
      ((Writer.plain Store.reluctant).Isolates "audit" "0" ⟨0, [], []⟩
          (recordAnd (textValue "\x7b")) 0 1 ↔
        ∃ groups, (recordAnd (textValue "\x7b")).IsReadAs groups) :=
  ⟨RetryPolicy.standard_isRepresentable, rfl,
    (Writer.plain Store.reluctant).handle_isolates_iff "audit" "0" ⟨0, [], []⟩
      RetryPolicy.standard_isRepresentable rfl⟩

def nullValue : ValueText := ⟨['n', 'u', 'l', 'l'], .word (.head _)⟩

/-- A message with null for its content is the end of a batch that is handled well without it. -/
theorem not_isolates_of_null :
    (recordAnd nullValue).message? 0 1 = some (messageOfValue nullValue) ∧
      (∃ request, (Writer.plain Store.reluctant).HandsOver "audit" "0" ⟨0, [], []⟩
        ((recordAnd nullValue).without 0 1).chars [request]) ∧
      ¬ (Writer.plain Store.reluctant).Isolates "audit" "0" ⟨0, [], []⟩
        (recordAnd nullValue) 0 1 := by
  have parsed : (Batch.decoder.parse
      (String.ofList ((recordAnd nullValue).without 0 1).chars)).toOption =
      some ⟨.ofList [("g", [⟨⟨none, none⟩, "\x7b\"message_id\": \"m1\"\x7d"⟩])]⟩ := by
    decide +kernel
  have refused : (Batch.decoder.parse (String.ofList (recordAnd nullValue).chars)).toOption =
      none := by
    decide +kernel
  have single : (requestsOf "0" [⟨⟨none, none⟩, "\x7b\"message_id\": \"m1\"\x7d"⟩]).length = 1 := by
    decide +kernel
  obtain ⟨request, one⟩ := List.length_eq_one_iff.mp single
  have settled := Writer.handsOver_of_parse (w := Writer.plain Store.reluctant)
    RetryPolicy.standard_isRepresentable "audit" "0" ⟨0, [], []⟩ parsed
  refine ⟨rfl, ⟨request, one ▸ settled⟩, ?_⟩
  rintro ⟨-, -, -, ⟨batch, -, -, again, -⟩, -⟩
  rw [refused] at again
  simp at again

end Intake.Bulk
