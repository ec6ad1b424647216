import Intake.Stream.Envelope

set_option autoImplicit false

/-!
Batches: messages in named groups. Groups are taken in the order of their names, messages of a group
in the order in which they stand.
-/

namespace Intake.Stream

structure Batch where
  groups : Dictionary (List Envelope)
  deriving DecidableEq, Inhabited

namespace Batch

def ofMessages (group : String) (messages : List Envelope) : Batch :=
  ⟨Dictionary.empty.insert group messages⟩

def envelopes (b : Batch) : List Envelope := b.groups.values.flatten

def size (b : Batch) : Nat := b.envelopes.length

def isEmpty (b : Batch) : Bool := b.size = 0

def decoder : Decoder Batch :=
  .record (.named "StreamBatch" 1)
    (.cons "records" (.dictionary (.list Envelope.decoder)) (some Dictionary.empty) .nil)
    fun (groups, _) => .ok ⟨groups⟩

def toJson (b : Batch) : Json :=
  .object [("records", .dictionary (.list Envelope.toJson) b.groups)]

end Batch

end Intake.Stream
