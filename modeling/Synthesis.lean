import Synthesis.Brief
import Synthesis.Calendar
import Synthesis.Chat.Model
import Synthesis.Chat.Status
import Synthesis.Command.Help
import Synthesis.Command.Line
import Synthesis.Command.Plan
import Synthesis.Command.Work
import Synthesis.Composition
import Synthesis.Context
import Synthesis.Decimal.Binary
import Synthesis.Decimal.Fixed
import Synthesis.Decimal.Literal
import Synthesis.Decimal.Shortest
import Synthesis.Duration
import Synthesis.Engine.Basic
import Synthesis.Engine.Children
import Synthesis.Engine.Leaf
import Synthesis.Engine.Result
import Synthesis.Engine.Service
import Synthesis.Engine.Solve
import Synthesis.Exchange.Parts
import Synthesis.Exchange.Reading
import Synthesis.Exchange.Setup
import Synthesis.Exchange.Writing
import Synthesis.Experience.Features
import Synthesis.Experience.Snapshot
import Synthesis.Experience.Window
import Synthesis.Failure
import Synthesis.File
import Synthesis.Journal
import Synthesis.Json.Basic
import Synthesis.Json.Fields
import Synthesis.Json.Reader
import Synthesis.Json.Writer
import Synthesis.Key.Basic
import Synthesis.Key.Cbor
import Synthesis.Key.Sha256
import Synthesis.Leaf.Abstractions
import Synthesis.Leaf.Candidate
import Synthesis.Leaf.Prompt
import Synthesis.Leaf.Retry
import Synthesis.Leaf.Scaffold
import Synthesis.Leaf.Validation
import Synthesis.Leak
import Synthesis.Leak.Document
import Synthesis.Log
import Synthesis.Main
import Synthesis.Pattern.Basic
import Synthesis.Pattern.CharSet
import Synthesis.Pattern.Program
import Synthesis.Pattern.Property
import Synthesis.Pattern.Reader
import Synthesis.Ranking
import Synthesis.Rehearsal.Chat
import Synthesis.Rehearsal.Rules
import Synthesis.Rehearsal.Script
import Synthesis.Rehearsal.Workshop
import Synthesis.Settings.Address
import Synthesis.Settings.Basic
import Synthesis.Settings.Check
import Synthesis.Settings.Field
import Synthesis.Settings.Record
import Synthesis.Settings.Source
import Synthesis.Signature
import Synthesis.Similarity.Corpus
import Synthesis.Similarity.Tokens
import Synthesis.Similarity.Vector
import Synthesis.Specification
import Synthesis.Store.Cache
import Synthesis.Store.Keyed
import Synthesis.Strategy.Basic
import Synthesis.Strategy.Builtin
import Synthesis.Strategy.Clusters
import Synthesis.Strategy.Parameters
import Synthesis.Strategy.Stages
import Synthesis.Subproblem
import Synthesis.Table
import Synthesis.Telemetry
import Synthesis.TestView
import Synthesis.Text.AsciiCase
import Synthesis.Text.Blank
import Synthesis.Text.CaseOrbit
import Synthesis.Text.Category
import Synthesis.Text.CodeTable
import Synthesis.Text.Columns
import Synthesis.Text.Cut
import Synthesis.Text.Order
import Synthesis.Text.Printable
import Synthesis.Text.Quoted
import Synthesis.Text.Script
import Synthesis.Text.Utf8
import Synthesis.Value
import Synthesis.Yaml.Block
import Synthesis.Yaml.Cursor
import Synthesis.Yaml.Entry
import Synthesis.Yaml.Flow
import Synthesis.Yaml.Node
import Synthesis.Yaml.Scalar
import Synthesis.Yaml.Token
import Synthesis.Proofs.Actions
import Synthesis.Proofs.Steps
import Synthesis.Proofs.Budget
import Synthesis.Proofs.Refusal
import Synthesis.Proofs.ParamText
import Synthesis.Proofs.TestKinds
import Synthesis.Proofs.Chains
import Synthesis.Proofs.Levels
import Synthesis.Proofs.Schedule
import Synthesis.Proofs.Starts
import Synthesis.Proofs.Invariants
import Synthesis.Proofs.Phases
import Synthesis.Proofs.Blame
import Synthesis.Proofs.Calls
import Synthesis.Proofs.Inspection
import Synthesis.Proofs.Origin
import Synthesis.Proofs.Matching
import Synthesis.Proofs.Searching
import Synthesis.Proofs.Padding
import Synthesis.Proofs.Findings
import Synthesis.Proofs.Lines
import Synthesis.Proofs.Leaks
import Synthesis.Proofs.Choices
import Synthesis.Proofs.Keys
import Synthesis.Proofs.Repeats
import Synthesis.Proofs.Audit
import Synthesis.Proofs.Iterations
import Synthesis.Proofs.Work
import Synthesis.Proofs.Moments
import Synthesis.Proofs.Occupancy
import Synthesis.Proofs.Freshness
import Synthesis.Proofs.Lifetimes
import Synthesis.Proofs.Window
import Synthesis.Proofs.Selection
import Synthesis.Proofs.Verdicts
import Synthesis.Proofs.JsonText
import Synthesis.Proofs.Instants
import Synthesis.Proofs.ByteOrder
import Synthesis.Proofs.Recency
import Synthesis.Proofs.Snapshots
import Synthesis.Proofs.GreedyOrder
import Synthesis.Proofs.WaveDepth
import Synthesis.Proofs.KeyCodes
import Synthesis.Proofs.Reordering
import Synthesis.Proofs.Eviction
import Synthesis.Proofs.Coverage
import Synthesis.Proofs.Emission
import Synthesis.Proofs.SlotNames
import Synthesis.Proofs.Nesting
import Synthesis.Proofs.SignatureText
import Synthesis.Proofs.Arrows
import Synthesis.Proofs.Assembly
import Synthesis.Proofs.LineBreaks
import Synthesis.Proofs.Regrouping
import Synthesis.Proofs.Dispatch
import Synthesis.Proofs.Retrying
import Synthesis.Proofs.Rounds
import Synthesis.Proofs.Evidence
import Synthesis.Proofs.TermVectors
import Synthesis.Proofs.TextSearch
import Synthesis.Proofs.LibrarySearch
import Synthesis.Proofs.ScaffoldLines
import Synthesis.Proofs.TimeLimits
