import TopUp.Calendar.Date
import TopUp.Calendar.Stamp
import TopUp.Call.CardCallback
import TopUp.Call.Failure
import TopUp.Call.Initiation
import TopUp.Call.Request
import TopUp.Call.Wire
import TopUp.Data.Dict
import TopUp.Data.FieldMap
import TopUp.Digest.Hmac
import TopUp.Digest.Sha256
import TopUp.Gateway.Exchange
import TopUp.Gateway.Failure
import TopUp.Gateway.Merchant
import TopUp.Gateway.Outcome
import TopUp.Gateway.Signature
import TopUp.Health
import TopUp.Http.MediaType
import TopUp.Http.Message
import TopUp.Http.Router
import TopUp.Json.Number
import TopUp.Json.Printer
import TopUp.Json.Reader
import TopUp.Json.Shape
import TopUp.Json.Value
import TopUp.Main
import TopUp.Net.RequestTarget
import TopUp.Net.SocketAddress
import TopUp.Number.Binary64
import TopUp.Number.Shortest
import TopUp.Payment.Identity
import TopUp.Payment.Reference
import TopUp.Payment.ResponseCode
import TopUp.Payment.Status
import TopUp.Poll.Limiter
import TopUp.Poll.Loop
import TopUp.Poll.Pace
import TopUp.Poll.Supervisor
import TopUp.Problem.Envelope
import TopUp.Problem.Kind
import TopUp.Problem.Wire
import TopUp.Proofs.Calendar.Date
import TopUp.Proofs.Calendar.Stamp
import TopUp.Proofs.Call.Alone
import TopUp.Proofs.Call.AnyStore
import TopUp.Proofs.Call.Booked
import TopUp.Proofs.Call.CardCallback
import TopUp.Proofs.Call.Debit
import TopUp.Proofs.Call.Initiation
import TopUp.Proofs.Call.Knowledge
import TopUp.Proofs.Call.Reconciliation
import TopUp.Proofs.Call.Stamped
import TopUp.Proofs.Call.Unsigned
import TopUp.Proofs.Call.Wire
import TopUp.Proofs.Data.FieldMap
import TopUp.Proofs.Gateway.Canonical
import TopUp.Proofs.Gateway.Exchange
import TopUp.Proofs.Gateway.Numbers
import TopUp.Proofs.Gateway.Outbound
import TopUp.Proofs.Gateway.Outcome
import TopUp.Proofs.Gateway.Signature
import TopUp.Proofs.Gateway.Tampering
import TopUp.Proofs.Http.Router
import TopUp.Proofs.Json.Decimals
import TopUp.Proofs.Json.Grammar
import TopUp.Proofs.Json.Kept
import TopUp.Proofs.Json.Objects
import TopUp.Proofs.Json.Reading
import TopUp.Proofs.Json.Records
import TopUp.Proofs.Json.Rewriting
import TopUp.Proofs.Json.Telling
import TopUp.Proofs.Number.Rounding
import TopUp.Proofs.Number.Shortest
import TopUp.Proofs.Payment.Identity
import TopUp.Proofs.Payment.Reference
import TopUp.Proofs.Poll.Budget
import TopUp.Proofs.Poll.Clock
import TopUp.Proofs.Poll.Marks
import TopUp.Proofs.Poll.Permits
import TopUp.Proofs.Poll.Schedule
import TopUp.Proofs.Poll.Steps
import TopUp.Proofs.Poll.Stopping
import TopUp.Proofs.Run
import TopUp.Proofs.Service.Answers
import TopUp.Proofs.Service.Attendance
import TopUp.Proofs.Service.Budget
import TopUp.Proofs.Service.CardReports
import TopUp.Proofs.Service.Closing
import TopUp.Proofs.Service.Fleet
import TopUp.Proofs.Service.Gate
import TopUp.Proofs.Service.Idempotency
import TopUp.Proofs.Service.Learning
import TopUp.Proofs.Service.Machine
import TopUp.Proofs.Service.Marks
import TopUp.Proofs.Service.Provenance
import TopUp.Proofs.Service.Retries
import TopUp.Proofs.Service.Shutdown
import TopUp.Proofs.Service.Tasks
import TopUp.Proofs.Service.Traffic
import TopUp.Proofs.Service.Verdicts
import TopUp.Proofs.Store.Draft
import TopUp.Proofs.Store.Eager
import TopUp.Proofs.Store.Faultless
import TopUp.Proofs.Store.KeyLocks
import TopUp.Proofs.Store.Ledger
import TopUp.Proofs.Store.LockPerKey
import TopUp.Proofs.Store.Orderly
import TopUp.Proofs.Store.Rows
import TopUp.Proofs.Store.Traffic
import TopUp.Proofs.Store.Uniqueness
import TopUp.Proofs.Store.Waiting
import TopUp.Proofs.Text.Digits
import TopUp.Proofs.Text.Pieces
import TopUp.Rehearsal.LimiterSession
import TopUp.Rehearsal.Scenario
import TopUp.Rehearsal.Script
import TopUp.Rehearsal.Stage
import TopUp.Rehearsal.StoreSession
import TopUp.Service
import TopUp.Settings.Environment
import TopUp.Settings.Section
import TopUp.Settings.Startup
import TopUp.Store.Basic
import TopUp.Store.Draft
import TopUp.Store.Failure
import TopUp.Store.KeyLocks
import TopUp.Store.Ledger
import TopUp.Store.Transaction
import TopUp.Text.Blank
import TopUp.Text.Decimal
import TopUp.Text.Hex
import TopUp.Text.Letters
import TopUp.Text.Mask
import TopUp.Uuid
