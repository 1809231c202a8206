import FileWatch.Text.Quoted
import FileWatch.Path
import FileWatch.EventMask.FlagList
import FileWatch.EventMask.TextForm
import FileWatch.CommandLine.Run
import FileWatch.Poller.Schedule
import FileWatch.Watcher.Run
import FileWatch.Main
import FileWatch.Proofs.Native.Lifecycle
import FileWatch.Proofs.Native.Rearm
import FileWatch.Proofs.Watcher.Trace
import FileWatch.Proofs.Watcher.Transport
import FileWatch.Proofs.Watcher.Renewal
import FileWatch.Proofs.Watcher.Rearming
import FileWatch.Proofs.Watcher.Delivery
import FileWatch.Proofs.Services.Nesting
import FileWatch.Proofs.Debouncer.Paths
import FileWatch.Proofs.Renames.Dropped
import FileWatch.Proofs.Signature.History
import FileWatch.Proofs.Watcher.Stopping
import FileWatch.Proofs.Reporting.Relevance
import FileWatch.Proofs.Watcher.Provenance
import FileWatch.Proofs.Watcher.Staleness
import FileWatch.Proofs.EventMask.WrittenForm
import FileWatch.Proofs.Toml.WrittenLine
import FileWatch.Proofs.Config.RoundTrip
import FileWatch.Proofs.Watcher.Honored
import FileWatch.Proofs.Watcher.Agreement
import FileWatch.Proofs.Watcher.Observed
import FileWatch.Proofs.Queue.Contents
import FileWatch.Proofs.Poller.Entries
import FileWatch.Proofs.Poller.Forwarding
import FileWatch.Proofs.Json.WrittenObject
import FileWatch.Proofs.Text.Encoding
import FileWatch.Proofs.Disk.Walking
import FileWatch.Proofs.Notification.Lines
import FileWatch.Proofs.Disk.Canonical
import FileWatch.Proofs.Watcher.Spelling
import FileWatch.Proofs.Disk.Edits
import FileWatch.Proofs.Native.Starting
import FileWatch.Proofs.Watcher.RootLoss
import FileWatch.Proofs.Watcher.Draining
import FileWatch.Proofs.CommandLine.Following
import FileWatch.Proofs.CommandLine.Rendering
import FileWatch.Proofs.Scope.Membership
import FileWatch.Proofs.Reporting.Additivity
import FileWatch.Proofs.CommandLine.Polling
import FileWatch.Proofs.EventMask.ListForm
import FileWatch.Proofs.EventMask.Notations
import FileWatch.Proofs.Config.Accepted
import FileWatch.Proofs.CommandLine.Timing
import FileWatch.Proofs.Debouncer.Memory
