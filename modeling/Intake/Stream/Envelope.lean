import Intake.Decoder

set_option autoImplicit false

/-!
Messages as a stream delivers them: where each comes from, and its content as text.
-/

namespace Intake.Stream

open Intake.Text

structure Position where
  partition : Option Int
  offset : Option Int
  deriving DecidableEq, Repr, Inhabited

def numberOrUnknown : Option Int → String
  | some n => Digits.integerText n
  | none => "unknown"

def Position.text (p : Position) : String :=
  s!"partition {numberOrUnknown p.partition}, offset {numberOrUnknown p.offset}"

structure Envelope where
  position : Position
  value : String
  deriving DecidableEq, Repr, Inhabited

def Envelope.ofParts (partition offset : Int) (value : String) : Envelope :=
  ⟨⟨some partition, some offset⟩, value⟩

def Envelope.decoder : Decoder Envelope :=
  .record (.named "MessageEnvelope" 3)
    (.cons "partition" (.option .int64) (some none)
      (.cons "offset" (.option .int64) (some none)
        (.cons "value" .string (some "") .nil)))
    fun (partition, offset, value, _) => .ok ⟨⟨partition, offset⟩, value⟩

def Envelope.toJson (e : Envelope) : Json :=
  .object [("partition", .option .int e.position.partition),
    ("offset", .option .int e.position.offset), ("value", .string e.value)]

end Intake.Stream
