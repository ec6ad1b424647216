import Intake.Proofs.Json.Faithful
import Intake.Proofs.ObjectFile.Rows

set_option autoImplicit false

/-!
Amounts in files, as numbers and as texts. A file in which an amount is written as a number and the
file in which the same characters stand in quotes decode to the same rows but for that amount. In
quotes the characters are read as the number that they denote; the number itself is a double first, so
it keeps its value as long as it has few digits.
-/

namespace Intake

open Intake.Json Intake.Text Intake.Number

namespace ObjectFile

/-- A row with a place for its amount: an object that has it in the last member of that name, or a
list that has it behind three items. -/
inductive OpenRow where
  | record (front : List (MemberText ValueText)) (member : MemberText Unit)
      (back : List (MemberText ValueText)) (named : Glyph.text? member.name = some "amount")
      (last : ∀ m ∈ back, Glyph.text? m.name ≠ some "amount")
  | list (front : List (Padded ValueText)) (item : Padded Unit) (back : List (Padded ValueText))
      (three : front.length = 3)

def OpenRow.fill (amount : ValueText) : OpenRow → ValueText
  | .record front member back _ _ => recordText (front ++ member.map (fun _ => amount) :: back)
  | .list front item back _ => listText (front ++ item.map (fun _ => amount) :: back)

/-- A file with a place for the amount of one of its rows. -/
structure OpenFile where
  before : Blank
  front : List (Padded ValueText)
  row : Padded OpenRow
  back : List (Padded ValueText)
  after : Blank

def OpenFile.bytes (f : OpenFile) (amount : ValueText) : List UInt8 :=
  Utf8.encode (f.before.chars ++
    ((listText (f.front ++ f.row.map (OpenRow.fill amount) :: f.back)).val ++ f.after.chars))

namespace OpenRow

open Transaction

private theorem treeOf_fill (row : OpenRow) (levels : Nat) :
    (∀ amount, treeOf (levels + 1) (row.fill amount) = none) ∨
    ∃ fill : Json → Json, IsFrame fill ∧
      ∀ amount, treeOf (levels + 1) (row.fill amount) = (treeOf levels amount).map fill := by
  cases row with
  | record front member back named last =>
    simp only [fill, treeOf_recordText, mapM_append_cons, memberOf_map named]
    cases front.mapM (memberOf levels) with
    | none => exact .inl fun _ => rfl
    | some before =>
      cases behind : back.mapM (memberOf levels) with
      | none => exact .inl fun amount => by cases treeOf levels amount <;> rfl
      | some after =>
        have frame : IsRawFrame fun value => .object (before ++ ("amount", value) :: after) :=
          isRawFrame_object (name_ne_of_mapM last behind)
        exact .inr ⟨_, frame.isFrame, fun amount => by cases treeOf levels amount <;> rfl⟩
  | list front item back three =>
    simp only [fill, treeOf_listText, mapM_append_cons]
    cases read : front.mapM fun p => treeOf levels p.value with
    | none => exact .inl fun _ => rfl
    | some before =>
      cases back.mapM fun p => treeOf levels p.value with
      | none =>
        exact .inl fun amount => by cases found : treeOf levels amount <;> simp [Padded.map, found]
      | some after =>
        have count : before.length = 3 := (mapM_eq_some_iff.mp read).length_eq.symm.trans three
        have frame : IsRawFrame fun value => .array (before ++ value :: after) :=
          isRawFrame_array count
        exact .inr ⟨_, frame.isFrame, fun amount => by
          cases found : treeOf levels amount <;> simp [Padded.map, found]⟩

private theorem ofText_fill (row : OpenRow) : ∃ base : Option Transaction, ∀ amount,
    (treeOf 125 amount = none → ofText (row.fill amount) = none) ∧
    ∀ a : AmountText, treeOf 125 amount = some a.json →
      ofText (row.fill amount) = withAmount base a := by
  rcases row.treeOf_fill 125 with unread | ⟨fill, ⟨base, made⟩, read⟩
  · have nothing : ∀ amount, ofText (row.fill amount) = none := fun amount => by
      rw [ofText, unread, Option.bind_none]
    exact ⟨none, fun amount => ⟨fun _ => nothing amount, fun _ _ => nothing amount⟩⟩
  · refine ⟨base, fun amount => ⟨fun nothing => ?_, fun a found => ?_⟩⟩
    · rw [ofText, read, nothing]
      rfl
    · rw [ofText, read, found]
      exact made a

end OpenRow

namespace OpenFile

open Transaction

variable {f : OpenFile} {rows : List Transaction}

private theorem exists_rows {amount : ValueText} (read : decodeFile (f.bytes amount) = .ok rows) :
    ∃ front row back, (f.front.mapM fun p => ofText p.value) = some front ∧
      ofText (f.row.value.fill amount) = some row ∧
      (f.back.mapM fun p => ofText p.value) = some back ∧ rows = front ++ row :: back := by
  have whole := toOption_decodeFile f.before f.after
    ⟨.none, f.front ++ f.row.map (OpenRow.fill amount) :: f.back⟩
  have made : (decodeFile (f.bytes amount)).toOption = some rows := congrArg Except.toOption read
  rw [mapM_append_cons] at whole
  obtain ⟨front, before, inner⟩ := Option.bind_eq_some_iff.mp (whole.symm.trans made)
  obtain ⟨row, here, inner⟩ := Option.bind_eq_some_iff.mp inner
  obtain ⟨back, behind, same⟩ := Option.map_eq_some_iff.mp inner
  exact ⟨front, row, back, before, here, behind, same.symm⟩

/-- The file with a number as an amount and the file with its characters in quotes hold the same rows
but for that amount. In quotes it is what the number denotes, if all digits can be kept. The number
itself is read, printed and read again, which gives the same value if it has few digits. -/
theorem decodes_alike {n : Numeral} {asNumber asText : List Transaction}
    (number : decodeFile (f.bytes n.asNumber) = .ok asNumber)
    (text : decodeFile (f.bytes n.asText) = .ok asText) :
    ∃ (front : List Transaction) (row : Transaction) (back : List Transaction) (j : JsonNumber)
      (a b : Decimal),
      asNumber = front ++ { row with amount := a } :: back ∧
      asText = front ++ { row with amount := b } :: back ∧ front.length = f.front.length ∧
      signedNumber n.chars = .ok (j, []) ∧ Decimal.read j.toChars = .ok a ∧
      Decimal.read n.chars = .ok b ∧ (n.Fits → b.value = n.amount) ∧
      (n.IsFaithful → a.value = b.value) := by
  obtain ⟨front, first, back, before, first_, behind, rfl⟩ := exists_rows number
  obtain ⟨front', second, back', before', second_, behind', rfl⟩ := exists_rows text
  obtain rfl := Option.some.inj (before.symm.trans before')
  obtain rfl := Option.some.inj (behind.symm.trans behind')
  obtain ⟨base, made⟩ := f.row.value.ofText_fill
  cases read : signedNumber n.chars with
  | error stop =>
    have nothing := (made n.asNumber).1 (by rw [n.treeOf_asNumber, read]; rfl)
    cases nothing.symm.trans first_
  | ok result =>
    obtain ⟨j, rest⟩ := result
    obtain rfl := Numeral.eq_nil_of_signedNumber read
    have printed := (made n.asNumber).2 (.number j) (by rw [n.treeOf_asNumber, read]; rfl)
    have quoted := (made n.asText).2 (.text (String.ofList n.chars)) (n.treeOf_asText 125)
    obtain ⟨row, a, whole, readNumber, rfl⟩ := exists_of_withAmount (printed.symm.trans first_)
    obtain ⟨row', b, whole', readText, rfl⟩ := exists_of_withAmount (quoted.symm.trans second_)
    obtain rfl := Option.some.inj (whole.symm.trans whole')
    rw [AmountText.toChars, String.toList_ofList, n.trim_chars] at readText
    have count : front.length = f.front.length := (mapM_eq_some_iff.mp before).length_eq.symm
    have exact_ : n.Fits → b.value = n.amount := fun fits => Decimal.value_read fits readText
    refine ⟨front, row, back, j, a, b, rfl, rfl, count, rfl, readNumber, readText, exact_, ?_⟩
    intro faithful
    have kept : a.value = n.amount := faithful.value_number isBoundary_nil
      (by rwa [List.append_nil]) readNumber
    exact kept.trans (exact_ faithful.fits).symm

section Settled

def settled (amount : Decimal) : Transaction :=
  ⟨"tx-1", "c-1", "a-1", amount, "SETTLED", ⟨⟨2024, 4, 5⟩, 10, 0, 0, 0⟩⟩

def settledFile : OpenFile where
  before := .none
  front := []
  row := ⟨.none, .record
    [tightMember "transaction_id" (textValue "tx-1"), tightMember "client_id" (textValue "c-1"),
      tightMember "account_id" (textValue "a-1")]
    (tightMember "amount" ())
    [tightMember "status" (textValue "SETTLED"),
      tightMember "timestamp" (textValue "2024-04-05T10:00:00Z")]
    (by decide +kernel) (by decide +kernel), .none⟩
  back := []
  after := .none

def fewDigits : Numeral where
  negative := false
  whole := ⟨['1', '2', '5'], List.all_eq_true.mp rfl, by decide⟩
  fraction := some ⟨['5', '0'], List.all_eq_true.mp rfl, by decide⟩
  exponent := none
  leading := by decide

def manyDigits : Numeral where
  negative := false
  whole := ⟨['9', '0', '0', '7', '1', '9', '9', '2', '5', '4', '7', '4', '0', '9'], List.all_eq_true.mp rfl,
    by decide⟩
  fraction := some ⟨['9', '3'], List.all_eq_true.mp rfl, by decide⟩
  exponent := none
  leading := by decide

theorem decodes_alike_fewDigits : fewDigits.Fits ∧ fewDigits.IsFaithful ∧ ∃ a b : Decimal,
    decodeFile (settledFile.bytes fewDigits.asNumber) = .ok [settled a] ∧
    decodeFile (settledFile.bytes fewDigits.asText) = .ok [settled b] ∧
    b.value = fewDigits.amount ∧ a.value = b.value := by
  have number : decodeFile (settledFile.bytes fewDigits.asNumber) =
      .ok [settled ⟨false, 1255, 1⟩] := by decide +kernel
  have text : decodeFile (settledFile.bytes fewDigits.asText) =
      .ok [settled ⟨false, 12550, 2⟩] := by decide +kernel
  have fits : fewDigits.Fits := ⟨by decide, by decide, by decide⟩
  have faithful : fewDigits.IsFaithful :=
    .short (d := 1255) (k := 1) (by decide) (by decide) (by decide) (by decide) (by decide) (by decide)
  obtain ⟨front, row, back, j, a, b, first, second, count, -, -, -, exact_, alike⟩ :=
    decodes_alike number text
  obtain rfl : front = [] := List.eq_nil_of_length_eq_zero count
  obtain ⟨same, -⟩ := List.cons.inj first
  obtain ⟨same', -⟩ := List.cons.inj second
  have here : a = ⟨false, 1255, 1⟩ := (congrArg Transaction.amount same).symm
  have there : b = ⟨false, 12550, 2⟩ := (congrArg Transaction.amount same').symm
  exact ⟨fits, faithful, a, b, here ▸ number, there ▸ text, exact_ fits, alike faithful⟩

/-- An amount of sixteen digits is another one as a number than in quotes: its digits, as one number, are
no double, and what is made of the nearest one is printed as another amount. -/
theorem differs_of_manyDigits : ∃ a b : Decimal,
    decodeFile (settledFile.bytes manyDigits.asNumber) = .ok [settled a] ∧
    decodeFile (settledFile.bytes manyDigits.asText) = .ok [settled b] ∧ a.value ≠ b.value := by
  refine ⟨⟨false, 9007199254740992, 2⟩, ⟨false, 9007199254740993, 2⟩, by decide +kernel,
    by decide +kernel, ?_⟩
  norm_num [Decimal.value]

end Settled

end OpenFile

end ObjectFile

end Intake
