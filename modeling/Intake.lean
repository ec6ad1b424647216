import Intake.Bulk.Chunking
import Intake.Bulk.DeadLetter
import Intake.Bulk.Fault
import Intake.Bulk.Pipeline
import Intake.Bulk.Retry
import Intake.Bulk.ScriptedStore
import Intake.Bulk.Store
import Intake.Bulk.Writer
import Intake.Cloud.Collapse
import Intake.Cloud.Exchange
import Intake.Cloud.ItemTable
import Intake.Cloud.Markup
import Intake.Cloud.ObjectStore
import Intake.Cloud.SecretStore
import Intake.Cloud.Verdict
import Intake.Command.Arguments
import Intake.Command.Folder
import Intake.Command.Network
import Intake.Command.Run
import Intake.Decoder
import Intake.Decoder.Tagged
import Intake.Dictionary
import Intake.Item
import Intake.Json.Basic
import Intake.Json.Fault
import Intake.Json.Layout
import Intake.Json.Lexeme
import Intake.Json.Printer
import Intake.Json.Reader
import Intake.Json.Skip
import Intake.Log
import Intake.Main
import Intake.Number.Binary64
import Intake.Number.Decimal
import Intake.Number.FloatText
import Intake.Number.Integer64
import Intake.Number.Shortest
import Intake.Number.Word
import Intake.ObjectFile.Notification
import Intake.ObjectFile.Transaction
import Intake.Relational.Pipeline
import Intake.Relational.RowWriter
import Intake.Relational.Run
import Intake.Relational.Source
import Intake.Settings.Basic
import Intake.Settings.Check
import Intake.Settings.Placeholder
import Intake.Sql.Fault
import Intake.Sql.Identifier
import Intake.Sql.Interleaving
import Intake.Sql.MemoryDatabase
import Intake.Sql.Postgres.Client
import Intake.Sql.Postgres.Handles
import Intake.Sql.Postgres.ScriptedServer
import Intake.Sql.Session
import Intake.Sql.Value
import Intake.Stream.AuditRecord
import Intake.Stream.Batch
import Intake.Stream.Envelope
import Intake.Text.Blank
import Intake.Text.CharClass
import Intake.Text.Digits
import Intake.Text.Percent
import Intake.Text.Quoted
import Intake.Text.Utf8
import Intake.Time.Calendar
import Intake.Time.Pattern
import Intake.Time.Rfc3339
import Intake.Time.Span
import Intake.Yaml.Content
import Intake.Yaml.Cursor
import Intake.Yaml.Document
import Intake.Yaml.Node
import Intake.Yaml.Property
import Intake.Yaml.Scalar
import Intake.Yaml.Token
import Intake.Proofs.Bulk.Delivery
import Intake.Proofs.Bulk.Conservation
import Intake.Proofs.Bulk.Chunking
import Intake.Proofs.Bulk.Run
import Intake.Proofs.Stream.Normalization
import Intake.Proofs.Bulk.Accounting
import Intake.Proofs.Cloud.Collapse
import Intake.Proofs.Cloud.ItemTable
import Intake.Proofs.Cloud.Upsert
import Intake.Proofs.Relational.Protocol
import Intake.Proofs.Relational.Isolation
import Intake.Proofs.Cloud.Acknowledgement
import Intake.Proofs.Bulk.SingleMessage
import Intake.Proofs.Decoder.Settling
import Intake.Proofs.Relational.Secrecy
import Intake.Proofs.Bulk.Surfacing
import Intake.Proofs.Relational.Stages
import Intake.Proofs.Sql.UniqueKeys
import Intake.Proofs.Sql.EndedSessions
import Intake.Proofs.Sql.History
import Intake.Proofs.Sql.SerialRows
import Intake.Proofs.Relational.Rerun
import Intake.Proofs.Cloud.RequestLimits
import Intake.Proofs.Bulk.LetterFile
import Intake.Proofs.Bulk.Deferral
import Intake.Proofs.Bulk.Backoff
import Intake.Proofs.Sql.Replies
import Intake.Proofs.Relational.ReplyFates
import Intake.Proofs.ObjectFile.Amounts
import Intake.Proofs.Cloud.Places
import Intake.Proofs.Bulk.Slices
import Intake.Proofs.Sql.Identifier
import Intake.Proofs.Settings.Placeholder
import Intake.Proofs.ObjectFile.Keys
import Intake.Proofs.Bulk.TornLetters
import Intake.Proofs.Json.Integers
import Intake.Proofs.Stream.Identifiers
import Intake.Proofs.Time.UnixText
