import Intake.ObjectFile.Transaction
import Intake.Proofs.Decoder.Trees
import Intake.Proofs.Decoder.Values
import Intake.Proofs.Text.Utf8

set_option autoImplicit false

/-!
Files row by row. The text of a file is an array of values, and what is made of it is made of each
value on its own. Of a row the amount is read apart from all else: another amount in its place gives
the same row with that amount.
-/

namespace Intake

open Intake.Json Intake.Text

private theorem mapM_bind_mapM {α β γ : Type} (f : α → Option β) (g : β → Option γ) (as : List α) :
    (as.mapM f).bind (·.mapM g) = as.mapM fun a => (f a).bind g := by
  induction as with
  | nil => rfl
  | cons a as ih =>
    rw [List.mapM_cons, List.mapM_cons, ← ih]
    cases f a with
    | none => rfl
    | some b =>
      cases as.mapM f with
      | none => cases found : g b <;> simp [found]
      | some bs => simp

namespace ObjectFile

def AmountText.json : AmountText → Json
  | .number n => .number n
  | .text s => .string s

private theorem AmountText.tidy_json (a : AmountText) : a.json.tidy = a.json := by
  cases a <;> rfl

namespace RawRow

/-- A row whose members are looked up by their names. -/
def ofLookup (find : String → Option Json) : Option RawRow :=
  let member := fun {α : Type} (d : Decoder α) (name : String) =>
    (find name).bind fun value => (d.ofTree value).toOption
  (member identifierDecoder "transaction_id").bind fun transactionId =>
  (member identifierDecoder "client_id").bind fun clientId =>
  (member identifierDecoder "account_id").bind fun accountId =>
  (member amountDecoder "amount").bind fun amount =>
  (member .string "status").bind fun status =>
  (member .string "timestamp").bind fun timestamp =>
    some ⟨transactionId, clientId, accountId, amount, status, timestamp⟩

private theorem exists_fields : ∃ (ν σ : Type) (fields : Decoder.Fields ν σ)
    (make : ν → Except Mismatch RawRow), decoder = .record (.named "RawRow" 6) fields make ∧ fields.names = columns ∧ fields.IsStrict ∧
      ∀ find, (fields.ofLookup find fields.blank).bind (fun value => (make value).toOption) =
        ofLookup find := by
  have member : ∀ {α : Type} (found : Option Json) (read : Json → Option α),
      (none <|> found.elim (none <|> none) read) = found.bind read := by
    intro α found read
    cases found <;> rfl
  refine ⟨_, _, _, _, rfl, rfl, ⟨rfl, rfl, rfl, rfl, rfl, rfl, trivial⟩, fun find => ?_⟩
  simp only [Decoder.Fields.ofLookup, Decoder.Fields.blank, ofLookup,
    show identifierDecoder.absent = none from rfl, show amountDecoder.absent = none from rfl,
    show Decoder.string.absent = none from rfl, member, Option.map_bind,
    Option.bind_assoc, Function.comp_def, Option.map_some, Option.bind_some, Except.toOption]

private theorem columns_nodup : columns.Nodup := by decide

private theorem toOption_ofTree_object (members : List (String × Json)) :
    (decoder.ofTree (tidy (.object members))).toOption =
      ofLookup fun name => (member? members name).map tidy := by
  obtain ⟨ν, σ, fields, make, same, names, strict, made⟩ := exists_fields
  rw [same, Decoder.toOption_ofTree_object rfl (names ▸ columns_nodup), made]

private theorem toOption_ofTree_array (values : List Json) :
    (decoder.ofTree (.array values)).toOption =
      if values.length = columns.length then
        ofLookup fun name => (columns.zip values).lookup name
      else none := by
  obtain ⟨ν, σ, fields, make, same, names, strict, made⟩ := exists_fields
  rw [same, Decoder.toOption_ofTree_array strict (names ▸ columns_nodup), made, names]

private theorem exists_ofLookup_update (find : String → Option Json) : ∃ raw : Option RawRow,
    ∀ a : AmountText, ofLookup (Function.update find "amount" (some a.json)) =
      raw.map fun raw => { raw with amount := a } := by
  refine ⟨ofLookup (Function.update find "amount" (some (AmountText.text "").json)), fun a => ?_⟩
  have read : ∀ a : AmountText, (amountDecoder.ofTree a.json).toOption = some a := by
    intro a
    cases a <;> rfl
  simp only [ofLookup, ne_eq, String.reduceEq, not_false_eq_true, Function.update_of_ne,
    Function.update_self, Option.bind_some, read, Option.map_bind, Function.comp_def,
    Option.map_some]

end RawRow

namespace Transaction

section Values

private theorem toOption_ofRows (index : Nat) (values : List Json) :
    (ofRows index values).toOption = values.mapM fun value => (ofRow value).toOption := by
  induction values generalizing index with
  | nil => rfl
  | cons value values ih =>
    rw [ofRows, List.mapM_cons, ← ih (index + 1)]
    cases ofRow value with
    | error fault => rfl
    | ok row => cases ofRows (index + 1) values <;> rfl

def ofText (v : ValueText) : Option Transaction :=
  (treeOf 126 v).bind fun value => (ofRow value).toOption

/-- A file is decoded value by value. -/
theorem toOption_decodeFile (before after : Blank) (a : ArrayText ValueText) :
    (decodeFile (Utf8.encode (before.chars ++ (a.chars Subtype.val ++ after.chars)))).toOption =
      a.items.mapM fun p => ofText p.value := by
  have each : ∀ p ∈ a.items, Begins p.value.val ∧
      Reads (Decoder.json.ofText 126) p.value.val (treeOf 126 p.value) := fun p _ =>
    ⟨p.value.property.exists_cons, reads_treeOf 126 p.value⟩
  have items : Reads ((Decoder.list .json).ofText (126 + 1)) (a.chars Subtype.val)
      (a.items.mapM fun p => treeOf 126 p.value) := Decoder.reads_list each
  have read := Decoder.toOption_parse_of_reads items before after
  have made : (a.items.mapM fun p => ofText p.value) =
      (a.items.mapM fun p => treeOf 126 p.value).bind
        (·.mapM fun value => (ofRow value).toOption) := (mapM_bind_mapM _ _ a.items).symm
  rw [Decoder.parse, String.toList_ofList] at read
  rw [made, ← read, decodeFile, Utf8.decode_eq_ok_iff.mpr rfl]
  simp only
  cases whole ((Decoder.list .json).ofText maxLevels) _ with
  | error fault => rfl
  | ok values => exact toOption_ofRows 0 values

end Values

section Frames

/-- A row, if there is one, with another amount, if that can be read. -/
def withAmount (base : Option Transaction) (a : AmountText) : Option Transaction :=
  base.bind fun row => (Number.Decimal.read a.toChars).toOption.map fun amount =>
    { row with amount := amount }

theorem exists_of_withAmount {base : Option Transaction} {a : AmountText} {made : Transaction}
    (read : withAmount base a = some made) : ∃ row amount, base = some row ∧
      Number.Decimal.read a.toChars = .ok amount ∧ made = { row with amount := amount } := by
  obtain ⟨row, whole, inner⟩ := Option.bind_eq_some_iff.mp read
  obtain ⟨amount, here, same⟩ := Option.map_eq_some_iff.mp inner
  cases result : Number.Decimal.read a.toChars with
  | error fault => rw [result] at here; cases here
  | ok other =>
    rw [result] at here
    exact ⟨row, amount, whole, congrArg Except.ok (Option.some.inj here), same.symm⟩

/-- What is taken out of a value with any amount in its place is the same but for that amount. -/
def IsRawFrame (fill : Json → Json) : Prop :=
  ∃ raw : Option RawRow, ∀ a : AmountText,
    (RawRow.decoder.ofTree (fill a.json).tidy).toOption = raw.map fun raw => { raw with amount := a }

/-- The row that is read of a value with any amount in its place is the same but for that amount, and
it is one if that amount is. -/
def IsFrame (fill : Json → Json) : Prop :=
  ∃ base : Option Transaction, ∀ a : AmountText,
    (ofRow (fill a.json)).toOption = withAmount base a

variable {fill : Json → Json} {front back : List (String × Json)} {items others : List Json}

theorem IsRawFrame.isFrame (frame : IsRawFrame fill) : IsFrame fill := by
  obtain ⟨raw, made⟩ := frame
  refine ⟨raw.bind fun raw => (Time.Pattern.read (Time.Pattern.ofFormat timestampFormat.toList)
    raw.timestamp.toList).toOption.map fun timestamp => ⟨raw.transactionId, raw.clientId,
      raw.accountId, default, raw.status, timestamp⟩, fun a => ?_⟩
  have taken := made a
  rw [ofRow, withAmount]
  cases raw with
  | none =>
    cases result : RawRow.decoder.ofTree (fill a.json).tidy with
    | error m => rfl
    | ok raw => rw [result] at taken; cases taken
  | some raw =>
    cases result : RawRow.decoder.ofTree (fill a.json).tidy with
    | error m => rw [result] at taken; cases taken
    | ok other =>
      rw [result] at taken
      obtain rfl := Option.some.inj taken
      simp only [Option.bind_some]
      cases Time.Pattern.read (Time.Pattern.ofFormat timestampFormat.toList) raw.timestamp.toList with
      | error fault => rfl
      | ok timestamp => cases read : Number.Decimal.read a.toChars <;> rfl

private theorem isRawFrame_of_lookup (find : String → Option Json) (made : ∀ a : AmountText,
    (RawRow.decoder.ofTree (fill a.json).tidy).toOption =
      RawRow.ofLookup (Function.update find "amount" (some a.json))) : IsRawFrame fill := by
  obtain ⟨raw, taken⟩ := RawRow.exists_ofLookup_update find
  exact ⟨raw, fun a => (made a).trans (taken a)⟩

theorem isRawFrame_object (last : ∀ e ∈ back, e.1 ≠ "amount") :
    IsRawFrame fun value => .object (front ++ ("amount", value) :: back) := by
  refine isRawFrame_of_lookup (fun name => (member? (front ++ back) name).map tidy) fun a => ?_
  rw [RawRow.toOption_ofTree_object]
  refine congrArg _ (funext fun name => ?_)
  by_cases same : name = "amount"
  · rw [same, Function.update_self, member?_last last, Option.map_some, a.tidy_json]
  · rw [Function.update_of_ne same, member?_of_ne (Ne.symm same)]

theorem isRawFrame_array (three : items.length = 3) :
    IsRawFrame fun value => .array (items ++ value :: others) := by
  obtain ⟨p, q, r, rfl⟩ := List.length_eq_three.mp three
  by_cases two : others.length = 2
  · obtain ⟨s, t, rfl⟩ := List.length_eq_two.mp two
    refine isRawFrame_of_lookup (fun name => (columns.zip
      [p.tidy, q.tidy, r.tidy, .null, s.tidy, t.tidy]).lookup name) fun a => ?_
    have tidied : (Json.array ([p, q, r] ++ a.json :: [s, t])).tidy =
        .array [p.tidy, q.tidy, r.tidy, a.json, s.tidy, t.tidy] := by
      simp [tidy, tidyItems_eq_map, a.tidy_json]
    rw [tidied, RawRow.toOption_ofTree_array, if_pos]
    · refine congrArg _ (funext fun name => ?_)
      by_cases same : name = "amount" <;> simp [same, columns, Dictionary.lookup_entry_cons]
    · rfl
  · refine ⟨none, fun a => ?_⟩
    rw [tidy, RawRow.toOption_ofTree_array, if_neg]
    · rfl
    · simpa [tidyItems_eq_map, columns] using two

end Frames

end Transaction

end ObjectFile

end Intake
