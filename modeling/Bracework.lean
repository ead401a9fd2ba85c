import Bracework.Json.Text
import Bracework.Number.Layout
import Bracework.Number.Numeral
import Bracework.Text.CharClass
import Bracework.Template.Printer
import Bracework.Template.Tree
import Bracework.Template.Validity
import Bracework.Template.Visitor
import Bracework.Wire.Lowering
import Bracework.Plugin.Application
import Bracework.Plugin.Catalogue
import Bracework.Plugin.Rule
import Bracework.Compile.Snapshot
import Bracework.Compile.Watcher
import Bracework.Project.Config
import Bracework.Toml.Reader
import Bracework.CommandLine.Command
import Bracework.Main
import Bracework.Proofs.Number.ReadBack
import Bracework.Proofs.Printing.RoundTrip
import Bracework.Proofs.Spans.Exact
import Bracework.Proofs.Schedule.Driver
import Bracework.Proofs.Symbols.Scopes
import Bracework.Proofs.Canonical.Reading
import Bracework.Proofs.Printing.Stable
import Bracework.Proofs.Validity.Parsed
import Bracework.Proofs.Validity.Visited
import Bracework.Proofs.Wire.Callees
import Bracework.Proofs.Plugins.Edits
import Bracework.Proofs.Compile.Reserved
import Bracework.Proofs.Reading.Outcome
import Bracework.Proofs.Reading.Openers
import Bracework.Proofs.Reading.Diagnostics
import Bracework.Proofs.Wire.Conditionals
import Bracework.Proofs.Compile.Conditionals
import Bracework.Proofs.Plugins.History
import Bracework.Plugin.Interner
import Bracework.Proofs.Plugins.Identity
import Bracework.Proofs.Compile.Resolution
import Bracework.Proofs.Schedule.Snapshots
import Bracework.Proofs.Reading.Appending
import Bracework.Proofs.Reading.Shifting
import Bracework.Proofs.Reading.Compositional
import Bracework.Proofs.Json.Distinct
import Bracework.Proofs.Wire.Distinct
import Bracework.Proofs.Wire.CallSites
import Bracework.Proofs.Wire.Arguments
import Bracework.Proofs.Compile.DebugOutput
import Bracework.Proofs.Compile.Quiet
import Bracework.Proofs.CommandLine.Loading
import Bracework.Proofs.CommandLine.Checking
import Bracework.Proofs.CommandLine.Places
import Bracework.Proofs.CommandLine.Tracing
import Bracework.Proofs.CommandLine.Compiling
import Bracework.Proofs.CommandLine.AllOrNothing
import Bracework.Proofs.Reading.Unclosed
import Bracework.Proofs.Traversal.Recording
import Bracework.Proofs.Plugins.Offences
import Bracework.Proofs.Plugins.Intent
import Bracework.Proofs.Spans.Brackets
import Bracework.Proofs.Spans.Order
import Bracework.Proofs.Validity.Breaches
import Bracework.Proofs.Plugins.Configured
import Bracework.Proofs.CommandLine.Confinement
