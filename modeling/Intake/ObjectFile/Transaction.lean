import Intake.Number.Word
import Intake.Sql.Value
import Intake.Text.Blank
import Intake.Text.Utf8

set_option autoImplicit false

/-!
Files of transactions: an array of rows. A file is decoded as a whole; the first row that cannot be
decoded refuses the file.
-/

namespace Intake.ObjectFile

open Intake.Json Intake.Text Intake.Number Intake.Time

structure Transaction where
  transactionId : String
  clientId : String
  accountId : String
  amount : Decimal
  status : String
  timestamp : DateTime
  deriving DecidableEq, Repr, Inhabited

def timestampFormat : String := "%Y-%m-%dT%H:%M:%SZ"

def columns : List String :=
  ["transaction_id", "client_id", "account_id", "amount", "status", "timestamp"]

def Transaction.params (t : Transaction) : List Sql.Value :=
  [.string t.transactionId, .string t.clientId, .string t.accountId, .decimal t.amount,
    .string t.status, .dateTime t.timestamp]

def Transaction.toJson (t : Transaction) : Json :=
  .object [("transaction_id", .string t.transactionId), ("client_id", .string t.clientId),
    ("account_id", .string t.accountId), ("amount", .string t.amount.text),
    ("status", .string t.status), ("timestamp", .string t.timestamp.text)]

inductive AmountText where
  | number (n : JsonNumber)
  | text (s : String)
  deriving Inhabited

/-- The characters of an amount: those of a number as it is printed, those of a text without white
space around it. -/
def AmountText.toChars : AmountText → List Char
  | .number n => n.toChars
  | .text s => Blank.trim s.toList

/-- A row before its timestamp and its amount are read. -/
structure RawRow where
  transactionId : String
  clientId : String
  accountId : String
  amount : AmountText
  status : String
  timestamp : String
  deriving Inhabited

def identifierDecoder : Decoder String :=
  .untagged "Id" fun
    | .string s => some s
    | .number (.integer n) => if n < Number.Word.count 63 then some (Digits.integerText n) else none
    | _ => none

def amountDecoder : Decoder AmountText :=
  .untagged "Amount" fun
    | .number n => some (.number n)
    | .string s => some (.text s)
    | _ => none

def RawRow.decoder : Decoder RawRow :=
  .record (.named "RawRow" 6)
    (.cons "transaction_id" identifierDecoder none
      (.cons "client_id" identifierDecoder none
        (.cons "account_id" identifierDecoder none
          (.cons "amount" amountDecoder none
            (.cons "status" .string none
              (.cons "timestamp" .string none .nil))))))
    fun (transactionId, clientId, accountId, amount, status, timestamp, _) =>
      .ok ⟨transactionId, clientId, accountId, amount, status, timestamp⟩

inductive RowFault where
  | shape (m : Mismatch)
  | timestamp (text : String)
  | amount (text : String) (fault : Decimal.Fault)
  deriving Inhabited

/-- Why a file cannot be decoded; rows are counted from zero. -/
inductive DecodeFault where
  | notUtf8 (reason : String)
  | notArray (reason : String)
  | row (index : Nat) (reason : String)
  | timestamp (index : Nat) (text : String)
  deriving DecidableEq, Repr, Inhabited

def DecodeFault.message : DecodeFault → String
  | .notUtf8 reason => s!"file is not valid UTF-8: {reason}"
  | .notArray reason => s!"file is not a JSON array: {reason}"
  | .row index reason => s!"row {index}: {reason}"
  | .timestamp index text => s!"row {index}: invalid timestamp '{text}'"

def RowFault.atRow (index : Nat) : RowFault → DecodeFault
  | .shape m => .row index m.message
  | .timestamp text => .timestamp index text
  | .amount text fault => .row index s!"invalid amount '{text}': {fault.message}"

namespace Transaction

def ofRow (value : Json) : Except RowFault Transaction :=
  match RawRow.decoder.ofTree value.tidy with
  | .error m => .error (.shape m)
  | .ok raw =>
    match Pattern.read (Pattern.ofFormat timestampFormat.toList) raw.timestamp.toList with
    | .error _ => .error (.timestamp raw.timestamp)
    | .ok timestamp =>
      match Decimal.read raw.amount.toChars with
      | .error fault => .error (.amount (String.ofList raw.amount.toChars) fault)
      | .ok amount =>
        .ok ⟨raw.transactionId, raw.clientId, raw.accountId, amount, raw.status, timestamp⟩

/-- The transactions of rows that begin with the given number. -/
def ofRows (index : Nat) : List Json → Except DecodeFault (List Transaction)
  | [] => .ok []
  | value :: values =>
    match ofRow value with
    | .error fault => .error (fault.atRow index)
    | .ok transaction => (ofRows (index + 1) values).map (transaction :: ·)

def decodeFile (bytes : List UInt8) : Except DecodeFault (List Transaction) :=
  match Utf8.decode bytes with
  | .error fault => .error (.notUtf8 fault.message)
  | .ok chars =>
    match whole ((Decoder.list .json).ofText maxLevels) chars with
    | .error fault => .error (.notArray fault.message)
    | .ok values => ofRows 0 values

end Transaction

end Intake.ObjectFile
