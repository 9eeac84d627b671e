import ReviewPanel.Category
import ReviewPanel.Command
import ReviewPanel.CommandLine.Grammar
import ReviewPanel.CommandLine.LogFilter
import ReviewPanel.CommandLine.Options
import ReviewPanel.CommandLine.Program
import ReviewPanel.Config
import ReviewPanel.ConfigFile
import ReviewPanel.Dictionary
import ReviewPanel.Disk
import ReviewPanel.Enumerated
import ReviewPanel.Finding
import ReviewPanel.Invocation
import ReviewPanel.Json.Document
import ReviewPanel.Json.Mismatch
import ReviewPanel.Json.Printer
import ReviewPanel.Json.Reader
import ReviewPanel.Json.Record
import ReviewPanel.Json.Token
import ReviewPanel.Json.Value
import ReviewPanel.Labels
import ReviewPanel.Ledger
import ReviewPanel.Main
import ReviewPanel.Number.Double
import ReviewPanel.Number.Shortest
import ReviewPanel.Panel.Basic
import ReviewPanel.Panel.Lifecycle
import ReviewPanel.Panel.Schedule
import ReviewPanel.Panel.Supervision
import ReviewPanel.Panel.Waiting
import ReviewPanel.Phase
import ReviewPanel.Proofs.Category
import ReviewPanel.Proofs.Command
import ReviewPanel.Proofs.Dictionary
import ReviewPanel.Proofs.Disk
import ReviewPanel.Proofs.Disk.Rooted
import ReviewPanel.Proofs.Disk.Trees
import ReviewPanel.Proofs.Json.Documents
import ReviewPanel.Proofs.Json.Reading
import ReviewPanel.Proofs.Json.Recovery
import ReviewPanel.Proofs.Json.Tokens
import ReviewPanel.Proofs.Ledger.Calls
import ReviewPanel.Proofs.Ledger.Interleavings
import ReviewPanel.Proofs.Ledger.Publications
import ReviewPanel.Proofs.Ledger.Revisions
import ReviewPanel.Proofs.Ledger.Shape
import ReviewPanel.Proofs.Listing
import ReviewPanel.Proofs.Panel.Agreement
import ReviewPanel.Proofs.Panel.AtRest
import ReviewPanel.Proofs.Panel.Calls
import ReviewPanel.Proofs.Panel.Corroboration
import ReviewPanel.Proofs.Panel.Deadlines
import ReviewPanel.Proofs.Panel.Deeds
import ReviewPanel.Proofs.Panel.Desks
import ReviewPanel.Proofs.Panel.Directories
import ReviewPanel.Proofs.Panel.Documents
import ReviewPanel.Proofs.Panel.Events
import ReviewPanel.Proofs.Panel.Growth
import ReviewPanel.Proofs.Panel.Moves
import ReviewPanel.Proofs.Panel.Refusals
import ReviewPanel.Proofs.Panel.Rehearsal
import ReviewPanel.Proofs.Panel.Reruns
import ReviewPanel.Proofs.Panel.Restart
import ReviewPanel.Proofs.Panel.Retries
import ReviewPanel.Proofs.Panel.Schedule
import ReviewPanel.Proofs.Panel.Sealing
import ReviewPanel.Proofs.Panel.Serving
import ReviewPanel.Proofs.Panel.SlotFirst
import ReviewPanel.Proofs.Panel.Succession
import ReviewPanel.Proofs.Panel.Tables
import ReviewPanel.Proofs.Panel.Tenure
import ReviewPanel.Proofs.Panel.Turns
import ReviewPanel.Proofs.Panel.Upkeep
import ReviewPanel.Proofs.Panel.Verdicts
import ReviewPanel.Proofs.Panel.Vigil
import ReviewPanel.Proofs.Panel.Wiring
import ReviewPanel.Proofs.Reduction
import ReviewPanel.Proofs.Reduction.Balance
import ReviewPanel.Proofs.Reduction.Monotone
import ReviewPanel.Proofs.RoundTrip
import ReviewPanel.Proofs.RunState
import ReviewPanel.Proofs.Scribe.AtRest
import ReviewPanel.Proofs.Scribe.Deliveries
import ReviewPanel.Proofs.Scribe.InOrder
import ReviewPanel.Proofs.Scribe.SoleWriter
import ReviewPanel.Proofs.Slots
import ReviewPanel.Proofs.Slots.WriteOnce
import ReviewPanel.Proofs.Synthesis
import ReviewPanel.Proofs.Synthesis.Agreement
import ReviewPanel.Proofs.Synthesis.Documents
import ReviewPanel.Proofs.Synthesis.Order
import ReviewPanel.Proofs.TestName
import ReviewPanel.Proofs.TestName.NormalForm
import ReviewPanel.Proofs.Text.ByteOrder
import ReviewPanel.Proofs.Timestamp
import ReviewPanel.Proofs.Workspace
import ReviewPanel.Proofs.Workspace.Directories
import ReviewPanel.Proofs.Workspace.Names
import ReviewPanel.Reduction
import ReviewPanel.Reviewer
import ReviewPanel.Role
import ReviewPanel.RunState
import ReviewPanel.Scribe
import ReviewPanel.Script
import ReviewPanel.Sha256
import ReviewPanel.Shell.Session
import ReviewPanel.Shell.Statement
import ReviewPanel.Shell.Token
import ReviewPanel.Shell.Utility
import ReviewPanel.Slots
import ReviewPanel.Synthesis.Report
import ReviewPanel.Synthesis.Triage
import ReviewPanel.Table
import ReviewPanel.TestName
import ReviewPanel.Text.Blank
import ReviewPanel.Text.Printable
import ReviewPanel.Text.Quoted
import ReviewPanel.Text.Utf8
import ReviewPanel.Timestamp
import ReviewPanel.Toml.Document
import ReviewPanel.Toml.Scalar
import ReviewPanel.Verdict
import ReviewPanel.Workspace
import ReviewPanel.Proofs.Panel.Forcing
import ReviewPanel.Proofs.Panel.Handles
import ReviewPanel.Proofs.Panel.Progress
import ReviewPanel.Proofs.Panel.Answers
import ReviewPanel.Proofs.Panel.Joining
import ReviewPanel.Proofs.Panel.Outcomes
import ReviewPanel.Proofs.Panel.Polling
