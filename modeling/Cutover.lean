import Cutover.Answer
import Cutover.Bus.Lease
import Cutover.Bus.LeaseTable
import Cutover.Bus.Memory
import Cutover.CommandLine
import Cutover.Config
import Cutover.Consumer
import Cutover.Control
import Cutover.Control.Plane
import Cutover.Daemon.Notice
import Cutover.Daemon.Options
import Cutover.Daemon.Service
import Cutover.Decimal.Reading
import Cutover.Decimal.Shortest
import Cutover.Dialogue
import Cutover.DualWrite
import Cutover.DualWrite.Router
import Cutover.Duration
import Cutover.Event
import Cutover.Http.MediaType
import Cutover.Http.Message
import Cutover.Http.Percent
import Cutover.Http.Target
import Cutover.Http.Url
import Cutover.Interactive
import Cutover.Json.Raw
import Cutover.Json.Record
import Cutover.Json.Spelling
import Cutover.Json.Value
import Cutover.Log
import Cutover.Main
import Cutover.Metrics
import Cutover.Net.Address
import Cutover.Operator
import Cutover.Pattern
import Cutover.Proofs.Store.View
import Cutover.Rehearsal.Application
import Cutover.Rehearsal.Backdrop
import Cutover.Rehearsal.Channel
import Cutover.Rehearsal.Comparing
import Cutover.Rehearsal.Comparison
import Cutover.Rehearsal.Connecting
import Cutover.Rehearsal.Consuming
import Cutover.Rehearsal.Consumption
import Cutover.Rehearsal.Daemon
import Cutover.Rehearsal.Desk
import Cutover.Rehearsal.Disk
import Cutover.Rehearsal.Governing
import Cutover.Rehearsal.Mending
import Cutover.Rehearsal.Performance
import Cutover.Rehearsal.Pipeline
import Cutover.Rehearsal.Posting
import Cutover.Rehearsal.Responder
import Cutover.Rehearsal.Routing
import Cutover.Rehearsal.Script
import Cutover.Rehearsal.ScriptedPool
import Cutover.Rehearsal.Server
import Cutover.Rehearsal.Site
import Cutover.Rehearsal.Stage
import Cutover.Rehearsal.Storage
import Cutover.Rehearsal.Upkeep
import Cutover.Rehearsal.World
import Cutover.Repair
import Cutover.Scheduler
import Cutover.Sql.Cell
import Cutover.Sql.Connection
import Cutover.Sql.Error
import Cutover.Sql.Pool
import Cutover.Sql.Query
import Cutover.Sql.Statement
import Cutover.Sql.Value
import Cutover.Store.Execution
import Cutover.Store.Request
import Cutover.Store.Sql
import Cutover.Store.Table
import Cutover.Text.Hex
import Cutover.Text.Name
import Cutover.Text.Quoted
import Cutover.Text.Token
import Cutover.Text.Utf8
import Cutover.Toml.Document
import Cutover.Toml.Number
import Cutover.Toml.Text
import Cutover.Toml.Value
import Cutover.Validation.Burst
import Cutover.Validation.Pass
import Cutover.Validation.Settings
import Cutover.Proofs.Validation.Extent
import Cutover.Proofs.Validation.Course
import Cutover.Proofs.Validation.Findings
import Cutover.Proofs.Validation.Progress
import Cutover.Proofs.Validation.Detection
import Cutover.Proofs.Repair.Handling
import Cutover.Proofs.Validation.Agreement
import Cutover.Proofs.Repair.Convergence
import Cutover.Proofs.Migration.Engine
import Cutover.Proofs.Migration.Transparency
import Cutover.Proofs.Json.Numeral
import Cutover.Proofs.Json.Reading
import Cutover.Proofs.Event.Wire
import Cutover.Proofs.Validation.Direction
import Cutover.Proofs.Control.Operation
import Cutover.Proofs.Bus.Carrier
import Cutover.Proofs.Control.Primacy
import Cutover.Proofs.Control.Roster
import Cutover.Proofs.Control.Refusal
import Cutover.Proofs.Daemon.Succession
import Cutover.Proofs.Validation.Paging
import Cutover.Proofs.Validation.Tailing
import Cutover.Proofs.Validation.Survey
import Cutover.Proofs.Validation.Retry
import Cutover.Proofs.Validation.Unrest
import Cutover.Proofs.Validation.Walk
import Cutover.Proofs.Validation.Shifting
import Cutover.Proofs.Validation.Appending
import Cutover.Proofs.Validation.Withdrawal
import Cutover.Proofs.Validation.Publicity
import Cutover.Proofs.Repair.Tandem
import Cutover.Proofs.Repair.Overlap
import Cutover.Proofs.Repair.Attempt
import Cutover.Proofs.Bus.Ledger
import Cutover.Proofs.Consumption.Custody
import Cutover.Proofs.Bus.Leasehold
import Cutover.Proofs.Bus.Tenancy
import Cutover.Proofs.Metrics
import Cutover.Proofs.DualWrite.Traffic
import Cutover.Proofs.DualWrite.Interpreter
import Cutover.Proofs.DualWrite.Legs
import Cutover.Proofs.DualWrite.Mirroring
import Cutover.Proofs.DualWrite.Permanence
import Cutover.Proofs.DualWrite.Crowd
import Cutover.Proofs.Json.Recovery
import Cutover.Proofs.Wire
import Cutover.Proofs.Bus.Contents
import Cutover.Proofs.Bus.Conservation
import Cutover.Proofs.Bus.Precedence
import Cutover.Proofs.Sql.Session
import Cutover.Proofs.Sql.Handover
import Cutover.Proofs.Sql.Reading
import Cutover.Proofs.Store.Meaning
import Cutover.Proofs.Store.Equivalence
import Cutover.Proofs.Store.Merging
import Cutover.Proofs.Store.Wording
import Cutover.Proofs.Store.Decoding
import Cutover.Proofs.Event.Grammar
import Cutover.Proofs.Doubling
import Cutover.Proofs.Bus.Reading
import Cutover.Proofs.Bus.Meaning
import Cutover.Proofs.Bus.Expiry
import Cutover.Proofs.Validation.Timetable
import Cutover.Proofs.Http.Path
import Cutover.Proofs.Operator.Switching
