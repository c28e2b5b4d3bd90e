import Coalesce.Artifact
import Coalesce.Backend
import Coalesce.Console
import Coalesce.Decimal.Binary64
import Coalesce.Decimal.Shortest
import Coalesce.Delivery
import Coalesce.Diagnostic.Announce
import Coalesce.Diagnostic.Basic
import Coalesce.Failure
import Coalesce.FilePath.Basic
import Coalesce.FilePath.Map
import Coalesce.FilePath.Name
import Coalesce.FilePath.Order
import Coalesce.FilePath.Raw
import Coalesce.FilePath.Relative
import Coalesce.FilePath.Sorting
import Coalesce.FilePath.Steps
import Coalesce.FilePath.Suffix
import Coalesce.FileTree.Basic
import Coalesce.FileTree.Change
import Coalesce.FileTree.Descent
import Coalesce.FileTree.Event
import Coalesce.FileTree.Listing
import Coalesce.FileTree.Resolve
import Coalesce.FileTree.Subtree
import Coalesce.FileTree.Watcher
import Coalesce.Journal
import Coalesce.Manifest.Basic
import Coalesce.Manifest.Field
import Coalesce.Manifest.Groups
import Coalesce.Manifest.Values
import Coalesce.ManifestProject
import Coalesce.Once
import Coalesce.Overlay
import Coalesce.Project
import Coalesce.Proofs.Accounts
import Coalesce.Proofs.Answers
import Coalesce.Proofs.Armed
import Coalesce.Proofs.Arrival
import Coalesce.Proofs.Attendance
import Coalesce.Proofs.Barrier
import Coalesce.Proofs.BrokenGroups
import Coalesce.Proofs.Calls
import Coalesce.Proofs.Capture
import Coalesce.Proofs.Collection
import Coalesce.Proofs.Course
import Coalesce.Proofs.Debounce
import Coalesce.Proofs.Deeds
import Coalesce.Proofs.Dismissal
import Coalesce.Proofs.Emission
import Coalesce.Proofs.Exclusion
import Coalesce.Proofs.Failing
import Coalesce.Proofs.FirstMissing
import Coalesce.Proofs.Following
import Coalesce.Proofs.Forwarding
import Coalesce.Proofs.Growth
import Coalesce.Proofs.History
import Coalesce.Proofs.InMemory
import Coalesce.Proofs.Incremental
import Coalesce.Proofs.Keys
import Coalesce.Proofs.LastWrites
import Coalesce.Proofs.Location
import Coalesce.Proofs.Looks
import Coalesce.Proofs.LostEdits
import Coalesce.Proofs.Names
import Coalesce.Proofs.News
import Coalesce.Proofs.Positions
import Coalesce.Proofs.Printed
import Coalesce.Proofs.PrintedNames
import Coalesce.Proofs.Prompt
import Coalesce.Proofs.QuietTime
import Coalesce.Proofs.Readings
import Coalesce.Proofs.Requesters
import Coalesce.Proofs.Reuse
import Coalesce.Proofs.Schedule
import Coalesce.Proofs.Shape
import Coalesce.Proofs.Spelling
import Coalesce.Proofs.Turns
import Coalesce.Proofs.Waiters
import Coalesce.Proofs.Watching
import Coalesce.Proofs.Writes
import Coalesce.Request
import Coalesce.Service.Basic
import Coalesce.Service.Clients
import Coalesce.Service.QuietTimer
import Coalesce.Session.Basic
import Coalesce.Session.Pass
import Coalesce.Settings
import Coalesce.Sources
import Coalesce.Text.Bytes
import Coalesce.Text.Invisible
import Coalesce.Text.Plural
import Coalesce.Text.Position
import Coalesce.Text.Quoted
import Coalesce.Text.Split
import Coalesce.Toml.Datetime
import Coalesce.Toml.Document
import Coalesce.Toml.Fault
import Coalesce.Toml.Insertion
import Coalesce.Toml.Node
import Coalesce.Toml.Numbers
import Coalesce.Toml.Reader
import Coalesce.Toml.Strings
import Coalesce.Workbench.Basic
import Coalesce.Workbench.Memory
import Coalesce.Workbench.OnDisk
import Coalesce.Workbench.Sample
