import Intake.ObjectFile.Transaction
import Intake.Proofs.Text.Utf8

set_option autoImplicit false

/-!
What decoding a file comes to. A file is rows if its bytes are a text, the text is an array, and every
item of the array is a row; a file that is not is refused for the first of these that fails, and of
the items for the first that is no row.
-/

namespace Intake

open Intake.Json Intake.Text

namespace Json

variable {levels : Nat} {text rest : List Char} {values : List Json}

private theorem readScalar_ne_array : readScalar text ≠ some (.ok (.array values, rest)) := by
  intro read
  unfold readScalar at read
  split at read
  next more => cases found : word ['u', 'l', 'l'] more <;> simp [found, Except.map] at read
  next more => cases found : word ['r', 'u', 'e'] more <;> simp [found, Except.map] at read
  next more => cases found : word ['a', 'l', 's', 'e'] more <;> simp [found, Except.map] at read
  next more => cases found : stringBody more <;> simp [found, Except.map] at read
  next c more _ _ _ _ =>
    split at read
    · cases found : signedNumber (c :: more) <;> simp [found, Except.map] at read
    · simp at read
  next => simp at read

private theorem readValue_bracket (front : skipSpace text = '[' :: rest) :
    readValue levels text =
      ((Decoder.list .json).ofText levels text).map fun r => (.array r.1, r.2) := by
  rw [readValue]
  simp only [Decoder.list, front]
  cases levels with
  | zero => rfl
  | succ levels => rfl

private theorem readValue_ne_array (other : ∀ more, skipSpace text ≠ '[' :: more) :
    readValue levels text ≠ .ok (.array values, rest) := by
  intro read
  rw [readValue] at read
  split at read
  next result scalar => exact readScalar_ne_array (scalar.trans (congrArg some read))
  next =>
    split at read
    next => simp at read
    next c more front =>
      have noBracket : c ≠ '[' := by
        rintro rfl
        exact other more front
      rw [if_neg noBracket] at read
      split at read
      · cases levels with
        | zero => simp at read
        | succ levels =>
          cases found : closed endObject (members (readValue levels) (more.length + 1) true more) <;>
            simp [found, Except.map] at read
      · simp at read

private theorem ofText_list_iff : (Decoder.list .json).ofText levels text = .ok (values, rest) ↔
    readValue levels text = .ok (.array values, rest) := by
  by_cases bracket : ∃ more, skipSpace text = '[' :: more
  · obtain ⟨more, front⟩ := bracket
    rw [readValue_bracket front]
    cases (Decoder.list .json).ofText levels text with
    | error stop => simp [Except.map]
    | ok r => simp [Except.map, Prod.ext_iff]
  · have other : ∀ more, skipSpace text ≠ '[' :: more := not_exists.mp bracket
    refine iff_of_false ?_ (readValue_ne_array other)
    intro read
    simp only [Decoder.list] at read
    cases read

private theorem whole_eq_ok_iff {α : Type} {reader : List Char → Except Stop (Read α)} {value : α} :
    whole reader text = .ok value ↔ ∃ rest, reader text = .ok (value, rest) ∧ skipSpace rest = [] := by
  unfold whole
  constructor
  · intro read
    split at read
    next => simp at read
    next found behind result =>
      split at read
      next nothing =>
        obtain rfl := Except.ok.inj read
        exact ⟨behind, result, nothing⟩
      next => simp at read
  · rintro ⟨rest, result, nothing⟩
    simp only [result, nothing]

private theorem whole_list_iff : whole ((Decoder.list .json).ofText maxLevels) text = .ok values ↔
    parse (String.ofList text) = .ok (.array values) := by
  rw [parse, String.toList_ofList, whole_eq_ok_iff, whole_eq_ok_iff]
  simp only [ofText_list_iff]

end Json

namespace ObjectFile

def DecodeFault.index? : DecodeFault → Option Nat
  | .row index _ => some index
  | .timestamp index _ => some index
  | _ => none

private theorem RowFault.index?_atRow (cause : RowFault) (index : Nat) :
    (cause.atRow index).index? = some index := by
  cases cause <;> rfl

/-- The bytes are a text, and that is an array of the values. -/
def HoldsArray (bytes : List UInt8) (values : List Json) : Prop :=
  ∃ chars, Utf8.encode chars = bytes ∧ Json.parse (String.ofList chars) = .ok (.array values)

/-- The bytes are not those of a text, or not those of an array, or some item of the array is no
row. -/
inductive Flawed (bytes : List UInt8) : Prop where
  | noText (foreign : ∀ chars, Utf8.encode chars ≠ bytes)
  | noArray {chars : List Char} (text : Utf8.encode chars = bytes)
      (other : ∀ values, Json.parse (String.ofList chars) ≠ .ok (.array values))
  | noRow {values : List Json} (holds : HoldsArray bytes values)
      (bad : ∃ value ∈ values, ∀ row, Transaction.ofRow value ≠ .ok row)

/-- What decoding bytes comes to: the rows of an array in their order, or the first fault. -/
inductive Decodes (bytes : List UInt8) : Except DecodeFault (List Transaction) → Prop where
  | noText (reason : String) (foreign : ∀ chars, Utf8.encode chars ≠ bytes) :
      Decodes bytes (.error (.notUtf8 reason))
  | noArray {chars : List Char} (reason : String) (text : Utf8.encode chars = bytes)
      (other : ∀ values, Json.parse (String.ofList chars) ≠ .ok (.array values)) :
      Decodes bytes (.error (.notArray reason))
  /-- All items in front of the one that the fault names are rows. -/
  | noRow {front back : List Json} {value : Json} {cause : RowFault} {fault : DecodeFault}
      (holds : HoldsArray bytes (front ++ value :: back))
      (sound : ∀ other ∈ front, ∃ row, Transaction.ofRow other = .ok row)
      (bad : Transaction.ofRow value = .error cause) (same : fault = cause.atRow front.length)
      (names : fault.index? = some front.length) : Decodes bytes (.error fault)
  | rows {values : List Json} {rows : List Transaction} (holds : HoldsArray bytes values)
      (each : List.Forall₂ (fun value row => Transaction.ofRow value = .ok row) values rows) :
      Decodes bytes (.ok rows)

namespace Transaction

variable {bytes : List UInt8} {values : List Json}

private theorem ofRows_cons (index : Nat) (value : Json) {row : Transaction}
    (sound : ofRow value = .ok row) :
    ofRows index (value :: values) = (ofRows (index + 1) values).map (row :: ·) := by
  rw [ofRows, sound]

private theorem ofRows_of_forall₂ {rows : List Transaction}
    (each : List.Forall₂ (fun value row => ofRow value = .ok row) values rows) (index : Nat) :
    ofRows index values = .ok rows := by
  induction each generalizing index with
  | nil => rfl
  | cons here _ ih =>
    rw [ofRows_cons index _ here, ih]
    rfl

private theorem exists_row_of_mem {rows : List Transaction}
    (each : List.Forall₂ (fun value row => ofRow value = .ok row) values rows) :
    ∀ value ∈ values, ∃ row, ofRow value = .ok row := by
  induction each with
  | nil => simp
  | cons here _ ih => exact List.forall_mem_cons.mpr ⟨⟨_, here⟩, ih⟩

private theorem ofRows_append {front back : List Json} {value : Json} {cause : RowFault}
    (sound : ∀ other ∈ front, ∃ row, ofRow other = .ok row) (bad : ofRow value = .error cause)
    (index : Nat) :
    ofRows index (front ++ value :: back) = .error (cause.atRow (index + front.length)) := by
  induction front generalizing index with
  | nil =>
    rw [List.nil_append, ofRows, bad]
    rfl
  | cons other front ih =>
    obtain ⟨⟨row, here⟩, others⟩ := List.forall_mem_cons.mp sound
    rw [List.cons_append, ofRows_cons index other here, ih others, List.length_cons,
      Nat.add_right_comm, Nat.add_assoc]
    rfl

/-- Of items that are not all rows there is a first that is none. -/
theorem exists_first (values : List Json) :
    (∃ rows, List.Forall₂ (fun value row => ofRow value = .ok row) values rows) ∨
    ∃ front value back cause, values = front ++ value :: back ∧
      (∀ other ∈ front, ∃ row, ofRow other = .ok row) ∧ ofRow value = .error cause := by
  induction values with
  | nil => exact .inl ⟨[], .nil⟩
  | cons value values ih =>
    cases here : ofRow value with
    | error cause => exact .inr ⟨[], value, values, cause, rfl, by simp, here⟩
    | ok row =>
      rcases ih with ⟨rows, each⟩ | ⟨front, bad, back, cause, rfl, sound, refused⟩
      · exact .inl ⟨row :: rows, .cons here each⟩
      · exact .inr ⟨value :: front, bad, back, cause, rfl,
          List.forall_mem_cons.mpr ⟨⟨row, here⟩, sound⟩, refused⟩

private theorem decodeFile_noText (foreign : ∀ chars, Utf8.encode chars ≠ bytes) :
    ∃ reason, decodeFile bytes = .error (.notUtf8 reason) := by
  unfold decodeFile
  cases read : Utf8.decode bytes with
  | error fault => exact ⟨fault.message, rfl⟩
  | ok chars => exact absurd (Utf8.decode_eq_ok_iff.mp read) (foreign chars)

private theorem decodeFile_noArray {chars : List Char} (text : Utf8.encode chars = bytes)
    (other : ∀ values, Json.parse (String.ofList chars) ≠ .ok (.array values)) :
    ∃ reason, decodeFile bytes = .error (.notArray reason) := by
  unfold decodeFile
  rw [Utf8.decode_eq_ok_iff.mpr text]
  cases read : whole ((Decoder.list .json).ofText maxLevels) chars with
  | error fault => exact ⟨fault.message, by simp only [read]⟩
  | ok values => exact absurd (whole_list_iff.mp read) (other values)

private theorem decodeFile_of_holds (holds : HoldsArray bytes values) :
    decodeFile bytes = ofRows 0 values := by
  obtain ⟨chars, text, array⟩ := holds
  unfold decodeFile
  rw [Utf8.decode_eq_ok_iff.mpr text]
  simp only [whole_list_iff.mpr array]

theorem decodes_decodeFile (bytes : List UInt8) : Decodes bytes (decodeFile bytes) := by
  by_cases written : ∃ chars, Utf8.encode chars = bytes
  · obtain ⟨chars, text⟩ := written
    by_cases array : ∃ values, Json.parse (String.ofList chars) = .ok (.array values)
    · obtain ⟨values, array⟩ := array
      have holds : HoldsArray bytes values := ⟨chars, text, array⟩
      rw [decodeFile_of_holds holds]
      rcases exists_first values with ⟨rows, each⟩ | ⟨front, value, back, cause, rfl, sound, bad⟩
      · rw [ofRows_of_forall₂ each]
        exact .rows holds each
      · rw [ofRows_append sound bad, Nat.zero_add]
        exact .noRow holds sound bad rfl (cause.index?_atRow _)
    · have other := not_exists.mp array
      obtain ⟨reason, refused⟩ := decodeFile_noArray text other
      rw [refused]
      exact .noArray reason text other
  · have foreign := not_exists.mp written
    obtain ⟨reason, refused⟩ := decodeFile_noText foreign
    rw [refused]
    exact .noText reason foreign

theorem decodeFile_of_decodes {rows : List Transaction} (decodes : Decodes bytes (.ok rows)) :
    decodeFile bytes = .ok rows := by
  cases decodes with
  | rows holds each => rw [decodeFile_of_holds holds, ofRows_of_forall₂ each]

theorem exists_fault_of_flawed (flawed : Flawed bytes) : ∃ fault, decodeFile bytes = .error fault := by
  cases flawed with
  | noText foreign =>
    obtain ⟨reason, refused⟩ := decodeFile_noText foreign
    exact ⟨_, refused⟩
  | noArray text other =>
    obtain ⟨reason, refused⟩ := decodeFile_noArray text other
    exact ⟨_, refused⟩
  | @noRow values holds bad =>
    obtain ⟨value, there, refused⟩ := bad
    rw [decodeFile_of_holds holds]
    rcases exists_first values with ⟨rows, each⟩ | ⟨front, first, back, cause, rfl, sound, cannot⟩
    · obtain ⟨row, read⟩ := exists_row_of_mem each value there
      exact absurd read (refused row)
    · exact ⟨_, ofRows_append sound cannot 0⟩

end Transaction

end ObjectFile

end Intake
