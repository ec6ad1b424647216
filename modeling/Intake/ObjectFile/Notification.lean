import Intake.Decoder
import Intake.Text.Percent

set_option autoImplicit false

/-!
Notifications about new objects in a bucket. Keys are encoded: a plus sign is a space, and then
percent escapes are resolved.
-/

namespace Intake.ObjectFile

open Intake.Text

/-- An object as a notification names it: its key is encoded. -/
structure Entry where
  bucket : String
  encodedKey : String
  deriving DecidableEq, Repr, Inhabited

/-- A notification; only its first entry counts. -/
structure Notification where
  entries : List Entry
  deriving DecidableEq, Repr, Inhabited

structure Location where
  bucket : String
  key : String
  deriving DecidableEq, Repr, Inhabited

inductive EventFault where
  | noRecords
  | invalidKey (key : String) (reason : String)
  deriving DecidableEq, Repr, Inhabited

def EventFault.message : EventFault → String
  | .noRecords => "notification contains no records"
  | .invalidKey key reason => s!"object key {Quoted.quote key} cannot be decoded: {reason}"

def decodeKey (key : String) : Except EventFault String :=
  match Percent.decode (key.toList.map fun c => if c = '+' then ' ' else c) with
  | .ok chars => .ok (String.ofList chars)
  | .error fault => .error (.invalidKey key fault.message)

namespace Notification

def ofObject (bucket encodedKey : String) : Notification := ⟨[⟨bucket, encodedKey⟩]⟩

def location (n : Notification) : Except EventFault Location :=
  match n.entries with
  | [] => .error .noRecords
  | entry :: _ => (decodeKey entry.encodedKey).map fun key => ⟨entry.bucket, key⟩

def named (name field : String) : Decoder String :=
  .record (.named name 1) (.cons field .string none .nil) fun (text, _) => .ok text

def entity : Decoder Entry :=
  .record (.named "ObjectEntity" 2)
    (.cons "bucket" (named "BucketRef" "name") none
      (.cons "object" (named "ObjectRef" "key") none .nil))
    fun (bucket, key, _) => .ok ⟨bucket, key⟩

def decoder : Decoder Notification :=
  .record (.named "ObjectNotification" 1)
    (.cons "Records" (.list (.record (.named "NotificationRecord" 1)
      (.cons "s3" entity none .nil) fun (entry, _) => .ok entry)) (some []) .nil)
    fun (entries, _) => .ok ⟨entries⟩

def entryToJson (e : Entry) : Json :=
  .object [("s3", .object [("bucket", .object [("name", .string e.bucket)]),
    ("object", .object [("key", .string e.encodedKey)])])]

def toJson (n : Notification) : Json := .object [("Records", .list entryToJson n.entries)]

end Notification

end Intake.ObjectFile
