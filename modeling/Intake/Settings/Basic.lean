import Intake.Bulk.Chunking
import Intake.Bulk.Retry
import Intake.Decoder.Tagged
import Intake.Relational.Pipeline

set_option autoImplicit false

/-!
The settings of both paths. Every setting has a default, so that none need be given.
-/

namespace Intake.Settings

open Intake.Text Intake.Time

structure Aws where
  region : String := "ap-southeast-1"
  endpoint : Option String := none
  accessKeyId : Option String := none
  secretAccessKey : Option String := none
  deriving DecidableEq, Repr, Inhabited

namespace Aws

def redacted : String := "***REDACTED***"

def decoder : Decoder Aws :=
  .record (.named "AwsConfig" 4)
    (.cons "region" .string (some ({} : Aws).region)
      (.cons "endpoint_url" (.option .string) (some none)
        (.cons "access_key_id" (.option .string) (some none)
          (.cons "secret_access_key" (.option .string) (some none) .nil))))
    fun (region, endpoint, accessKeyId, secretAccessKey, _) =>
      .ok ⟨region, endpoint, accessKeyId, secretAccessKey⟩

def toJson (a : Aws) : Json :=
  let secret := Json.option fun _ : String => .string redacted
  .object [("region", .string a.region), ("endpoint_url", .option .string a.endpoint),
    ("access_key_id", secret a.accessKeyId), ("secret_access_key", secret a.secretAccessKey)]

def shown (a : Aws) : String :=
  let secret := Quoted.option fun _ : String => "[REDACTED]"
  Quoted.record "AwsConfig"
    [("region", Quoted.quote a.region), ("endpoint_url", Quoted.option Quoted.quote a.endpoint),
      ("access_key_id", secret a.accessKeyId), ("secret_access_key", secret a.secretAccessKey)]

def login? (a : Aws) : Option (String × String) := do
  return (← a.accessKeyId, ← a.secretAccessKey)

end Aws

structure Retry where
  maxRetries : UInt32 := 5
  initialMilliseconds : Nat := 500
  multiplier : Float := 2.0
  maxMilliseconds : Nat := 30000
  deriving Inhabited

namespace Retry

def nat32 : Decoder Nat := .nat "u32" 32

def nat64 : Decoder Nat := .nat "u64" 64

def decoder : Decoder Retry :=
  let standard : Retry := {}
  .record (.named "RetryConfig" 4)
    (.cons "max_retries" (.map UInt32.ofNat nat32) (some standard.maxRetries)
      (.cons "initial_backoff_ms" nat64 (some standard.initialMilliseconds)
        (.cons "backoff_multiplier" .float (some standard.multiplier)
          (.cons "max_backoff_ms" nat64 (some standard.maxMilliseconds) .nil))))
    fun (maxRetries, initial, multiplier, longest, _) =>
      .ok ⟨maxRetries, initial, multiplier, longest⟩

def toJson (r : Retry) : Json :=
  .object [("max_retries", .nat r.maxRetries.toNat),
    ("initial_backoff_ms", .nat r.initialMilliseconds),
    ("backoff_multiplier", .float r.multiplier), ("max_backoff_ms", .nat r.maxMilliseconds)]

def policy (r : Retry) : Bulk.RetryPolicy :=
  ⟨r.maxRetries, .ofMilliseconds r.initialMilliseconds, r.multiplier,
    .ofMilliseconds r.maxMilliseconds⟩

end Retry

inductive Letters where
  | log
  | file (path : String)
  deriving DecidableEq, Repr, Inhabited

namespace Letters

def path : Decoder String :=
  .scalar "path string" (fun | .string s => some (.ok s) | _ => none)
    fun _ _ text => some (String.ofList text)

def decoder : Decoder Letters :=
  .tagged {
    expected := "internally tagged enum DeadLetterConfig"
    tag := "type"
    variants := [("log", .unit .log),
      ("file", .record
        ⟨"struct variant DeadLetterConfig::File",
          "struct variant DeadLetterConfig::File with 1 element", false⟩
        (.cons "path" path none .nil) fun (path, _) => .file path)] }

def toJson : Letters → Json
  | .log => .object [("type", .string "log")]
  | .file path => .object [("type", .string "file"), ("path", .string path)]

def shown : Letters → String
  | .log => "Log"
  | .file path => Quoted.record "File" [("path", Quoted.path path)]

end Letters

structure BulkPath where
  table : String := "business_transactions"
  batchSize : Nat := Bulk.batchLimit
  retry : Retry := {}
  letters : Letters := .log
  deriving Inhabited

namespace BulkPath

def decoder : Decoder BulkPath :=
  let standard : BulkPath := {}
  .record (.named "BulkConfig" 4)
    (.cons "table" .string (some standard.table)
      (.cons "batch_size" (.nat "usize" 64) (some standard.batchSize)
        (.cons "retry" Retry.decoder (some standard.retry)
          (.cons "dead_letter" Letters.decoder (some standard.letters) .nil))))
    fun (table, batchSize, retry, letters, _) => .ok ⟨table, batchSize, retry, letters⟩

def toJson (b : BulkPath) : Json :=
  .object [("table", .string b.table), ("batch_size", .nat b.batchSize),
    ("retry", b.retry.toJson), ("dead_letter", b.letters.toJson)]

end BulkPath

structure RelationalPath where
  table : String := Relational.defaultTable
  database : String := "user_db"
  port : Nat := 5432
  timeoutMilliseconds : Nat := 10000
  secretId : String := ""
  deriving DecidableEq, Repr, Inhabited

namespace RelationalPath

def decoder : Decoder RelationalPath :=
  let standard : RelationalPath := {}
  .record (.named "RelationalConfig" 5)
    (.cons "table" .string (some standard.table)
      (.cons "database" .string (some standard.database)
        (.cons "port" (.nat "u16" 16) (some standard.port)
          (.cons "connect_timeout_ms" Retry.nat64 (some standard.timeoutMilliseconds)
            (.cons "secret_id" .string (some standard.secretId) .nil)))))
    fun (table, database, port, timeout, secretId, _) =>
      .ok ⟨table, database, port, timeout, secretId⟩

def toJson (r : RelationalPath) : Json :=
  .object [("table", .string r.table), ("database", .string r.database), ("port", .nat r.port),
    ("connect_timeout_ms", .nat r.timeoutMilliseconds), ("secret_id", .string r.secretId)]

def target (r : RelationalPath) : Relational.Target :=
  ⟨r.secretId, r.database, r.port, r.timeoutMilliseconds⟩

end RelationalPath

end Settings

structure Settings where
  aws : Settings.Aws := {}
  bulk : Settings.BulkPath := {}
  relational : Settings.RelationalPath := {}
  deriving Inhabited

namespace Settings

def decoder : Decoder Settings :=
  .record (.named "PipelineConfig" 3)
    (.cons "aws" Aws.decoder (some {})
      (.cons "bulk" BulkPath.decoder (some {})
        (.cons "relational" RelationalPath.decoder (some {}) .nil)))
    fun (aws, bulk, relational, _) => .ok ⟨aws, bulk, relational⟩

def toJson (s : Settings) : Json :=
  .object [("aws", s.aws.toJson), ("bulk", s.bulk.toJson), ("relational", s.relational.toJson)]

end Settings

end Intake
