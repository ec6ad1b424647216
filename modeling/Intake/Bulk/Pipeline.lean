import Intake.Bulk.Writer
import Intake.Stream.AuditRecord
import Intake.Stream.Batch

set_option autoImplicit false

/-!
From a batch of messages to the store. A batch always succeeds: messages that are no records are
logged and passed over, and chunks that were given up are dead letters.
-/

namespace Intake.Bulk

open Intake.Text

def PutRequest.ofRecord (r : Stream.AuditRecord) : PutRequest := ⟨r.toItem⟩

structure BatchResponse where
  status : String
  processed : Nat
  deriving DecidableEq, Repr, Inhabited

namespace BatchResponse

def success (processed : Nat) : BatchResponse := ⟨"success", processed⟩

def toJson (r : BatchResponse) : Json :=
  .object [("status", .string r.status), ("processed_logs", .nat r.processed)]

def decoder : Decoder BatchResponse :=
  .record (.named "BulkResponse" 2)
    (.cons "status" .string none (.cons "processed_logs" (.nat "usize" 64) none .nil))
    fun (status, processed, _) => .ok ⟨status, processed⟩

end BatchResponse

def batchProcessed (table : String) (messages rejected : Nat) (s : Summary) : LogEvent :=
  ⟨.info, "Bulk batch processed",
    [("table", table), ("messages", Digits.text messages), ("rejected", Digits.text rejected),
      ("accepted", Digits.text s.accepted), ("failed", Digits.text s.failed),
      ("exhausted_chunks", Digits.text s.exhaustedChunks)]⟩

/-- Writes the records of a batch to a table; `received` is the time of messages that name none. -/
def Writer.handle {σ τ υ : Type} (w : Writer σ τ υ) (table received : String)
    (batch : Stream.Batch) (places : Places σ τ υ) : Option (Run σ τ υ BatchResponse) :=
  let normalized := Stream.normalize received batch.envelopes
  (w.write table (normalized.records.map PutRequest.ofRecord) places).map fun run =>
    { value := .success normalized.records.length
      effects := normalized.log.map Effect.logged ++ run.effects
        ++ [.logged (batchProcessed table batch.size normalized.rejected.length run.value)]
      places := run.places }

end Intake.Bulk
