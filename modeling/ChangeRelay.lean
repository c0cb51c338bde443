import ChangeRelay.Change.Delivered
import ChangeRelay.Change.Kind
import ChangeRelay.Change.Mutation
import ChangeRelay.Change.Notice
import ChangeRelay.Disk.Basic
import ChangeRelay.Disk.Edit
import ChangeRelay.Disk.Fault
import ChangeRelay.Disk.Occurrence
import ChangeRelay.Disk.Resolve
import ChangeRelay.Entry
import ChangeRelay.Error
import ChangeRelay.Host.Basic
import ChangeRelay.Host.Module
import ChangeRelay.Host.Registry
import ChangeRelay.Host.Watched
import ChangeRelay.Json.Document
import ChangeRelay.Json.Numeral
import ChangeRelay.Json.Reader
import ChangeRelay.Json.Token
import ChangeRelay.Json.Value
import ChangeRelay.Path
import ChangeRelay.Pattern.Basic
import ChangeRelay.Pattern.Match
import ChangeRelay.Proofs.Change.Renames
import ChangeRelay.Proofs.Computation
import ChangeRelay.Proofs.Disk.Entry
import ChangeRelay.Proofs.Disk.Places
import ChangeRelay.Proofs.Disk.Writing
import ChangeRelay.Proofs.Host.History
import ChangeRelay.Proofs.Host.InStep
import ChangeRelay.Proofs.Host.OneEngine
import ChangeRelay.Proofs.Host.Owner
import ChangeRelay.Proofs.Host.Record
import ChangeRelay.Proofs.Json.Documents
import ChangeRelay.Proofs.Json.Tokens
import ChangeRelay.Proofs.Path.Below
import ChangeRelay.Proofs.Path.Components
import ChangeRelay.Proofs.Path.Names
import ChangeRelay.Proofs.Path.Relative
import ChangeRelay.Proofs.Path.Within
import ChangeRelay.Proofs.Pattern.Meaning
import ChangeRelay.Proofs.Queue.Barriers
import ChangeRelay.Proofs.Queue.Closing
import ChangeRelay.Proofs.Queue.Course
import ChangeRelay.Proofs.Queue.Delivery
import ChangeRelay.Proofs.Queue.Engines
import ChangeRelay.Proofs.Queue.Lost
import ChangeRelay.Proofs.Queue.Steps
import ChangeRelay.Proofs.Relay.Contents
import ChangeRelay.Proofs.Relay.Contributions
import ChangeRelay.Proofs.Relay.Disposal
import ChangeRelay.Proofs.Relay.Gather
import ChangeRelay.Proofs.Relay.Grouping
import ChangeRelay.Proofs.Relay.Log
import ChangeRelay.Proofs.Relay.Lookups
import ChangeRelay.Proofs.Relay.Metadata
import ChangeRelay.Proofs.Relay.Namesakes
import ChangeRelay.Proofs.Relay.Newcomer
import ChangeRelay.Proofs.Relay.Owned
import ChangeRelay.Proofs.Relay.Passes
import ChangeRelay.Proofs.Relay.Phases
import ChangeRelay.Proofs.Relay.Routing
import ChangeRelay.Proofs.Relay.Runs
import ChangeRelay.Proofs.Relay.Spellings
import ChangeRelay.Proofs.Relay.Splitting
import ChangeRelay.Proofs.Settings.Building
import ChangeRelay.Proofs.Settings.Extensions
import ChangeRelay.Proofs.Settings.Metadata
import ChangeRelay.Proofs.Settings.RoundTrip
import ChangeRelay.Proofs.Text.Lowercase
import ChangeRelay.Proofs.Text.Utf8
import ChangeRelay.Proofs.Walk.Ended
import ChangeRelay.Proofs.Walk.Files
import ChangeRelay.Proofs.Walk.Probed
import ChangeRelay.Proofs.Walk.Questions
import ChangeRelay.Proofs.Walk.Reach
import ChangeRelay.Proofs.Walk.Yields
import ChangeRelay.Proofs.Watch.Roots
import ChangeRelay.Queue.Delivery
import ChangeRelay.Queue.Report
import ChangeRelay.Queue.Worker
import ChangeRelay.Relay.Batch
import ChangeRelay.Relay.Gather
import ChangeRelay.Relay.Memo
import ChangeRelay.Relay.Router
import ChangeRelay.Relay.Run
import ChangeRelay.Settings.Basic
import ChangeRelay.Settings.Inclusion
import ChangeRelay.Settings.Metadata
import ChangeRelay.Text.CaseTable
import ChangeRelay.Text.HiddenTable
import ChangeRelay.Text.Lowercase
import ChangeRelay.Text.Quoted
import ChangeRelay.Text.Utf8
import ChangeRelay.Walk.Expansion
import ChangeRelay.Walk.Visits
import ChangeRelay.Watch.Coverage
import ChangeRelay.Watch.Feed
import ChangeRelay.Watch.Watcher
