import Mailroom.Backend
import Mailroom.Change
import Mailroom.Compression.Bits
import Mailroom.Compression.Block
import Mailroom.Compression.Codes
import Mailroom.Compression.Digest
import Mailroom.Compression.Early.Frame
import Mailroom.Compression.Early.Literals
import Mailroom.Compression.Early.Sequences
import Mailroom.Compression.Early.Version
import Mailroom.Compression.Frame
import Mailroom.Compression.Intake
import Mailroom.Compression.Lanes
import Mailroom.Compression.Literals
import Mailroom.Compression.Register
import Mailroom.Compression.Sequences
import Mailroom.Compression.States
import Mailroom.Compression.Window
import Mailroom.Database.Cell
import Mailroom.Database.Codec
import Mailroom.Database.Edit
import Mailroom.Database.Engine
import Mailroom.Database.File
import Mailroom.Database.Image
import Mailroom.Database.Image.Description
import Mailroom.Database.Migration
import Mailroom.Database.Schema
import Mailroom.Database.Store
import Mailroom.Double
import Mailroom.Double.Shortest
import Mailroom.Error
import Mailroom.Files
import Mailroom.Flags
import Mailroom.Flags.Update
import Mailroom.Health
import Mailroom.Ident
import Mailroom.Json
import Mailroom.Json.Document
import Mailroom.Json.File
import Mailroom.Json.Models
import Mailroom.Json.Number
import Mailroom.Json.Reader
import Mailroom.Json.Record
import Mailroom.Json.Writer
import Mailroom.Memory.Store
import Mailroom.Message
import Mailroom.Message.Query
import Mailroom.NameSet
import Mailroom.Paging
import Mailroom.Partition
import Mailroom.Proofs.Changes.Answers
import Mailroom.Proofs.Changes.Bounded
import Mailroom.Proofs.Changes.Completeness
import Mailroom.Proofs.Changes.History
import Mailroom.Proofs.Changes.Pointers
import Mailroom.Proofs.Changes.Policies
import Mailroom.Proofs.Changes.Purges
import Mailroom.Proofs.Changes.Reads
import Mailroom.Proofs.Changes.Retention
import Mailroom.Proofs.Contents.Origins
import Mailroom.Proofs.Contents.Runs
import Mailroom.Proofs.Contents.Sizes
import Mailroom.Proofs.Contents.Stock
import Mailroom.Proofs.Contents.Stores
import Mailroom.Proofs.Database.Codec
import Mailroom.Proofs.Database.Reads
import Mailroom.Proofs.Database.Rows
import Mailroom.Proofs.Database.Writes
import Mailroom.Proofs.Effects
import Mailroom.Proofs.Failures.Calls
import Mailroom.Proofs.Failures.Stores
import Mailroom.Proofs.Faults
import Mailroom.Proofs.Files
import Mailroom.Proofs.Flags.Edits
import Mailroom.Proofs.Flags.Requests
import Mailroom.Proofs.Flags.Wire
import Mailroom.Proofs.Incidents
import Mailroom.Proofs.Interleaving.Clients
import Mailroom.Proofs.Interleaving.Stamps
import Mailroom.Proofs.Interleaving.Systems
import Mailroom.Proofs.Interleaving.Updates
import Mailroom.Proofs.Json.Models
import Mailroom.Proofs.Json.Numbers
import Mailroom.Proofs.Json.Records
import Mailroom.Proofs.Json.Strings
import Mailroom.Proofs.Json.Texts
import Mailroom.Proofs.Listings.Agreement
import Mailroom.Proofs.Listings.Derived
import Mailroom.Proofs.Listings.Isolation
import Mailroom.Proofs.Listings.Lookups
import Mailroom.Proofs.Listings.Reached
import Mailroom.Proofs.Listings.Rows
import Mailroom.Proofs.Locality
import Mailroom.Proofs.Memory.Counters
import Mailroom.Proofs.Memory.Logs
import Mailroom.Proofs.Memory.Outages
import Mailroom.Proofs.Memory.Places
import Mailroom.Proofs.Memory.Reset
import Mailroom.Proofs.Memory.Views
import Mailroom.Proofs.Memory.Writes
import Mailroom.Proofs.Mirror.Batches
import Mailroom.Proofs.Mirror.Calls
import Mailroom.Proofs.Mirror.ChangeLog
import Mailroom.Proofs.Mirror.Counters
import Mailroom.Proofs.Mirror.FlagWrites
import Mailroom.Proofs.Mirror.Insert
import Mailroom.Proofs.Mirror.Logs
import Mailroom.Proofs.Mirror.ReadBack
import Mailroom.Proofs.Mirror.Reads
import Mailroom.Proofs.Mirror.Records
import Mailroom.Proofs.Mirror.Relation
import Mailroom.Proofs.Mirror.Removals
import Mailroom.Proofs.Mirror.Reset
import Mailroom.Proofs.Mirror.Runs
import Mailroom.Proofs.Mirror.Views
import Mailroom.Proofs.Mutations
import Mailroom.Proofs.Numbers.Ledger
import Mailroom.Proofs.Numbers.Runs
import Mailroom.Proofs.Outcomes
import Mailroom.Proofs.Paging
import Mailroom.Proofs.Partition
import Mailroom.Proofs.Partition.Calls
import Mailroom.Proofs.Projection
import Mailroom.Proofs.Removals.Counting
import Mailroom.Proofs.Removals.Mailboxes
import Mailroom.Proofs.Removals.Messages
import Mailroom.Proofs.Removals.Numbers
import Mailroom.Proofs.Retries.Batches
import Mailroom.Proofs.Retries.Database
import Mailroom.Proofs.Retries.Memory
import Mailroom.Proofs.Retries.Refusals
import Mailroom.Proofs.Retries.Resets
import Mailroom.Proofs.Retries.Rows
import Mailroom.Proofs.Retries.Stores
import Mailroom.Proofs.Revisions.Calls
import Mailroom.Proofs.Revisions.Detection
import Mailroom.Proofs.Revisions.Runs
import Mailroom.Proofs.Revisions.Truthful
import Mailroom.Proofs.Revisions.View
import Mailroom.Proofs.Scans.Draws
import Mailroom.Proofs.Scans.Pages
import Mailroom.Proofs.Scans.Reading
import Mailroom.Proofs.Scans.Safety
import Mailroom.Proofs.Scans.Sources
import Mailroom.Proofs.Settings
import Mailroom.Proofs.Simulation
import Mailroom.Proofs.Statements.Bounds
import Mailroom.Proofs.Statements.Limits
import Mailroom.Proofs.Statements.Recorded
import Mailroom.Proofs.Step
import Mailroom.Proofs.Table
import Mailroom.Proofs.Text.Decimal
import Mailroom.Proofs.Time.Calendar
import Mailroom.Proofs.Time.Lifetimes
import Mailroom.Proofs.Time.Timestamp
import Mailroom.Service.Call
import Mailroom.Service.ChangeLog
import Mailroom.Service.Mailboxes
import Mailroom.Settings
import Mailroom.Settings.Form
import Mailroom.Settings.Source
import Mailroom.StartupError
import Mailroom.Step
import Mailroom.Storage
import Mailroom.Storage.Faulty
import Mailroom.Table
import Mailroom.Text.Blank
import Mailroom.Text.Decimal
import Mailroom.Text.Hex
import Mailroom.Text.Printable
import Mailroom.Text.Quoted
import Mailroom.Time.Calendar
import Mailroom.Time.Instant
import Mailroom.Time.Timestamp
