import VersionStore.Agenda
import VersionStore.Cache
import VersionStore.Cache.Key
import VersionStore.Cache.Live
import VersionStore.Cache.Summary
import VersionStore.Clock
import VersionStore.Config
import VersionStore.Config.Environment
import VersionStore.Config.File
import VersionStore.Config.Form
import VersionStore.Context
import VersionStore.Digest.Sha256
import VersionStore.Engine.Mapping
import VersionStore.Engine.Memory
import VersionStore.Engine.Request
import VersionStore.Engine.Wildcard
import VersionStore.Error
import VersionStore.Filter
import VersionStore.Filter.Form
import VersionStore.Http.Client
import VersionStore.Http.Envelope
import VersionStore.Http.Message
import VersionStore.Http.Script
import VersionStore.Identifier
import VersionStore.Json.Decode
import VersionStore.Json.Numeral
import VersionStore.Json.Printer
import VersionStore.Json.Token
import VersionStore.Json.Tree
import VersionStore.Json.Value
import VersionStore.Namespace
import VersionStore.Number.Decimal
import VersionStore.Number.Double
import VersionStore.Number.Hexadecimal
import VersionStore.Number.Shortest
import VersionStore.Number.Word
import VersionStore.Proofs.Cache.Balance
import VersionStore.Proofs.Cache.Entries
import VersionStore.Proofs.Cache.Epoch
import VersionStore.Proofs.Cache.Key
import VersionStore.Proofs.Cache.Reading
import VersionStore.Proofs.Cache.Schedule
import VersionStore.Proofs.Cache.Spelling
import VersionStore.Proofs.Calls
import VersionStore.Proofs.Config.Form
import VersionStore.Proofs.Context.Derivation
import VersionStore.Proofs.Context.Family
import VersionStore.Proofs.Context.Genealogy
import VersionStore.Proofs.Dsl
import VersionStore.Proofs.Engine
import VersionStore.Proofs.Http.Agreement
import VersionStore.Proofs.Http.Envelope
import VersionStore.Proofs.Http.Place
import VersionStore.Proofs.Http.Reference
import VersionStore.Proofs.Http.Session
import VersionStore.Proofs.Http.Verdict
import VersionStore.Proofs.Json.Depth
import VersionStore.Proofs.Json.Fields
import VersionStore.Proofs.Json.Grammar
import VersionStore.Proofs.Json.Layout
import VersionStore.Proofs.Json.Numeral
import VersionStore.Proofs.Json.Printing
import VersionStore.Proofs.Json.Scanning
import VersionStore.Proofs.Ledger
import VersionStore.Proofs.Listing
import VersionStore.Proofs.Naming
import VersionStore.Proofs.Newest
import VersionStore.Proofs.Number.Decimal
import VersionStore.Proofs.Number.Rounding
import VersionStore.Proofs.Query.Form
import VersionStore.Proofs.Query.Order
import VersionStore.Proofs.Query.Selection
import VersionStore.Proofs.Record
import VersionStore.Proofs.Record.Reading
import VersionStore.Proofs.Removal
import VersionStore.Proofs.StableSort
import VersionStore.Proofs.Threads.Genuine
import VersionStore.Proofs.Threads.Isolation
import VersionStore.Proofs.Threads.Memory
import VersionStore.Proofs.Threads.Monotonic
import VersionStore.Proofs.Threads.Presence
import VersionStore.Proofs.Threads.Prompt
import VersionStore.Proofs.Threads.Provenance
import VersionStore.Proofs.Threads.Refinement
import VersionStore.Proofs.Threads.Removal
import VersionStore.Proofs.Threads.Retention
import VersionStore.Proofs.Threads.Staleness
import VersionStore.Proofs.Threads.Starting
import VersionStore.Proofs.Threads.Step
import VersionStore.Proofs.Threads.Uncached
import VersionStore.Proofs.Threads.World
import VersionStore.Proofs.Url.Path
import VersionStore.Proofs.Url.Segments
import VersionStore.Proofs.Wildcard
import VersionStore.Proofs.World.Apart
import VersionStore.Proofs.World.Append
import VersionStore.Proofs.World.Course
import VersionStore.Proofs.World.Failure
import VersionStore.Proofs.World.Race
import VersionStore.Proofs.World.Staleness
import VersionStore.Proofs.World.Turn
import VersionStore.Query
import VersionStore.Query.Dsl
import VersionStore.Query.Dsl.Reading
import VersionStore.Query.Form
import VersionStore.Record
import VersionStore.Store
import VersionStore.Store.Sequential
import VersionStore.Table
import VersionStore.Text.Affix
import VersionStore.Text.Blank
import VersionStore.Text.Bytes
import VersionStore.Text.CodeTable
import VersionStore.Text.Direction
import VersionStore.Text.Invisible
import VersionStore.Text.Joining
import VersionStore.Text.Mark
import VersionStore.Text.Normal
import VersionStore.Text.Normal.Decomposition
import VersionStore.Text.Normal.Order
import VersionStore.Text.Quoted
import VersionStore.Text.Scan
import VersionStore.Text.Split
import VersionStore.Text.Unassigned
import VersionStore.Threads
import VersionStore.Time
import VersionStore.Toml.Document
import VersionStore.Toml.Scalar
import VersionStore.Toml.Table
import VersionStore.Toml.Text
import VersionStore.Url
import VersionStore.Url.Domain
import VersionStore.Url.Domain.Mapping
import VersionStore.Url.Host
import VersionStore.Url.Percent
import VersionStore.Url.Punycode
import VersionStore.World
