import Intake.Stream.AuditRecord
import Mathlib.Data.List.Basic

set_option autoImplicit false

/-!
What normalizing messages does, message by message: each is a record or is rejected, whatever stands
around it, and the order is kept among both.
-/

namespace Intake.Stream

open Intake.Text

/-- The record that a message is, if it is one. -/
def record? (received : String) (e : Envelope) : Option AuditRecord :=
  match AuditRecord.ofEnvelope received e with
  | .ok record => some record
  | .error _ => none

/-- Why a message is no record, if it is none. -/
def rejection? (received : String) (e : Envelope) : Option Rejection :=
  match AuditRecord.ofEnvelope received e with
  | .ok _ => none
  | .error rejection => some rejection

theorem rejection?_isNone (received : String) (e : Envelope) :
    (rejection? received e).isNone = (record? received e).isSome := by
  unfold rejection? record?
  split <;> rfl

theorem record?_eq_some_iff {received : String} {e : Envelope} {r : AuditRecord} :
    record? received e = some r ↔ AuditRecord.ofEnvelope received e = .ok r := by
  unfold record?
  cases AuditRecord.ofEnvelope received e with
  | ok record => simp
  | error rejection => simp

theorem AuditRecord.ofEnvelope_eq_ok_iff {received : String} {e : Envelope} {r : AuditRecord} :
    ofEnvelope received e = .ok r ↔
      ∃ members, (Json.parse e.value).toOption = some (.object members) ∧
        ofMembers? received members = some r := by
  unfold ofEnvelope
  cases Json.parse e.value with
  | error fault => simp [Except.toOption]
  | ok value =>
    cases value with
    | object members =>
      cases made : ofMembers? received members with
      | none => simp [Except.toOption, made]
      | some record => simp [Except.toOption, made]
    | _ => simp [Except.toOption]

theorem normalize_eq (received : String) (envelopes : List Envelope) :
    normalize received envelopes =
      ⟨envelopes.filterMap (record? received), envelopes.filterMap (rejection? received)⟩ := by
  induction envelopes with
  | nil => rfl
  | cons e rest ih =>
    have step : normalize received (e :: rest) =
        match AuditRecord.ofEnvelope received e with
        | .ok record =>
          { normalize received rest with records := record :: (normalize received rest).records }
        | .error rejection =>
          { normalize received rest with
            rejected := rejection :: (normalize received rest).rejected } := rfl
    rw [step, ih, List.filterMap_cons, List.filterMap_cons, record?, rejection?]
    split <;> rfl

section Outcomes

variable {received : String} {e : Envelope}

private theorem outcome_of_ok {r : AuditRecord} (read : AuditRecord.ofEnvelope received e = .ok r) :
    record? received e = some r ∧ rejection? received e = none := by
  rw [record?, rejection?, read]
  exact ⟨rfl, rfl⟩

private theorem outcome_of_error {r : Rejection}
    (read : AuditRecord.ofEnvelope received e = .error r) :
    record? received e = none ∧ rejection? received e = some r := by
  rw [record?, rejection?, read]
  exact ⟨rfl, rfl⟩

end Outcomes

theorem length_records_add_rejected (received : String) (envelopes : List Envelope) :
    (envelopes.filterMap (record? received)).length +
      (envelopes.filterMap (rejection? received)).length = envelopes.length := by
  induction envelopes with
  | nil => rfl
  | cons e rest ih =>
    cases read : AuditRecord.ofEnvelope received e with
    | ok record =>
      obtain ⟨kept, accepted⟩ := outcome_of_ok read
      rw [List.filterMap_cons_some kept, List.filterMap_cons_none accepted, List.length_cons,
        List.length_cons]
      omega
    | error rejection =>
      obtain ⟨dropped, refused⟩ := outcome_of_error read
      rw [List.filterMap_cons_none dropped, List.filterMap_cons_some refused, List.length_cons,
        List.length_cons]
      omega

def placeOf (e : Envelope) : String :=
  let shown (number : Option Int) := number.elim "unknown" toString
  s!"partition {shown e.position.partition}, offset {shown e.position.offset}"

/-- Why a message is no record: its content is no document, or no object, or names no identifier. -/
inductive Blames (e : Envelope) : String → Prop
  | notJson {fault : Json.Fault} (read : Json.parse e.value = .error fault) :
      Blames e ("invalid payload at " ++ placeOf e ++ ": " ++ fault.message)
  | notObject {value : Json} (read : Json.parse e.value = .ok value)
      (other : ∀ members, value ≠ .object members) :
      Blames e ("invalid payload at " ++ placeOf e ++ ": expected JSON object, got " ++ value.kind)
  | missingId {members : List (String × Json)} (read : Json.parse e.value = .ok (.object members))
      (noId : ∀ id, Json.member? members "message_id" = some (.string id) → id = "") :
      Blames e ("missing message_id at " ++ placeOf e)

/-- The warning about a message that is passed over: where it comes from, and why. -/
structure Warns (e : Envelope) (event : LogEvent) : Prop where
  level_eq : event.level = .warn
  partition : event.fields.lookup "partition" =
    some (e.position.partition.elim "None" fun n => s!"Some({n})")
  offset : event.fields.lookup "offset" =
    some (e.position.offset.elim "None" fun n => s!"Some({n})")
  reason : ∃ text, Blames e text ∧ event.fields.lookup "reason" = some text

private theorem text_position (e : Envelope) : e.position.text = placeOf e := by
  have shown : ∀ number : Option Int, numberOrUnknown number = number.elim "unknown" toString := by
    rintro (_ | n)
    · rfl
    · exact Digits.integerText_eq_toString n
  simp only [Position.text, placeOf, shown]

private theorem AuditRecord.ofMembers?_eq_none_iff {received : String}
    {members : List (String × Json)} : ofMembers? received members = none ↔
      ∀ id, Json.member? members "message_id" = some (.string id) → id = "" := by
  unfold ofMembers?
  split
  next id named => by_cases empty : id = "" <;> simp [named, empty]
  next other =>
    simp only [true_iff]
    exact fun id named => absurd named (other id)

private theorem blames_of_rejected {received : String} {e : Envelope} {r : Rejection}
    (rejected : AuditRecord.ofEnvelope received e = .error r) :
    r.position = e.position ∧ Blames e r.message := by
  unfold AuditRecord.ofEnvelope at rejected
  split at rejected
  next fault read =>
    obtain rfl := Except.error.inj rejected
    have blames := Blames.notJson read
    rw [← text_position] at blames
    exact ⟨rfl, blames⟩
  next members read =>
    split at rejected
    next => cases rejected
    next none =>
      obtain rfl := Except.error.inj rejected
      have blames := Blames.missingId read (AuditRecord.ofMembers?_eq_none_iff.mp none)
      rw [← text_position] at blames
      exact ⟨rfl, blames⟩
  next value other read =>
    obtain rfl := Except.error.inj rejected
    have blames := Blames.notObject read other
    rw [← text_position] at blames
    exact ⟨rfl, blames⟩

private theorem warns_warning {received : String} {e : Envelope} {r : Rejection}
    (rejected : AuditRecord.ofEnvelope received e = .error r) : Warns e r.warning := by
  have shown : ∀ number : Option Int, Quoted.option Digits.integerText number =
      number.elim "None" fun n => s!"Some({n})" := by
    rintro (_ | n)
    · rfl
    · rw [Quoted.option, Digits.integerText_eq_toString]
      rfl
  obtain ⟨position, blames⟩ := blames_of_rejected rejected
  constructor
  · rfl
  · rw [← position, ← shown]
    rfl
  · rw [← position, ← shown]
    rfl
  · exact ⟨r.message, blames, rfl⟩

/-- Each message that is no record is warned about, and nothing else, in the order of the messages. -/
theorem forall₂_warning (received : String) (envelopes : List Envelope) :
    List.Forall₂ Warns (envelopes.filter fun e => (record? received e).isNone)
      ((envelopes.filterMap (rejection? received)).map Rejection.warning) := by
  induction envelopes with
  | nil => exact .nil
  | cons e rest ih =>
    cases read : AuditRecord.ofEnvelope received e with
    | ok record =>
      obtain ⟨kept, accepted⟩ := outcome_of_ok read
      rw [List.filterMap_cons_none accepted, List.filter_cons_of_neg (by simp [kept])]
      exact ih
    | error rejection =>
      obtain ⟨dropped, refused⟩ := outcome_of_error read
      rw [List.filterMap_cons_some refused, List.filter_cons_of_pos (by simp [dropped]),
        List.map_cons]
      exact .cons (warns_warning read) ih

end Intake.Stream
