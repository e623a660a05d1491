import NamespaceMerge.CommandLine.Arguments
import NamespaceMerge.CommandLine.Session
import NamespaceMerge.CommandLine.Usage
import NamespaceMerge.Declaration.Block
import NamespaceMerge.Declaration.Header
import NamespaceMerge.Declaration.Render
import NamespaceMerge.Disk.Basic
import NamespaceMerge.Disk.Fault
import NamespaceMerge.Disk.Glob
import NamespaceMerge.Disk.Reading
import NamespaceMerge.Disk.Wildcard
import NamespaceMerge.File.Basic
import NamespaceMerge.File.Name
import NamespaceMerge.Json.Basic
import NamespaceMerge.Json.Described
import NamespaceMerge.Json.Reader
import NamespaceMerge.Json.Writer
import NamespaceMerge.Log.Basic
import NamespaceMerge.Log.Journal
import NamespaceMerge.Log.Sink
import NamespaceMerge.Logger.Record
import NamespaceMerge.Logger.Registry
import NamespaceMerge.Logger.Timestamp
import NamespaceMerge.Main
import NamespaceMerge.Merging.DeclarationMerger
import NamespaceMerge.Merging.Declarations
import NamespaceMerge.Merging.ScriptMerger
import NamespaceMerge.Merging.Scripts
import NamespaceMerge.Module.Block
import NamespaceMerge.Module.Merge
import NamespaceMerge.Module.Outline
import NamespaceMerge.Number.Basic
import NamespaceMerge.Number.Binary64
import NamespaceMerge.Number.Decimal
import NamespaceMerge.Number.Shortest
import NamespaceMerge.Options.Settings
import NamespaceMerge.Options.Table
import NamespaceMerge.Proofs.CommandLine.Isolation
import NamespaceMerge.Proofs.Declaration.Arrangement
import NamespaceMerge.Proofs.Declaration.Chunk
import NamespaceMerge.Proofs.Declaration.Collected
import NamespaceMerge.Proofs.Declaration.Conservation
import NamespaceMerge.Proofs.Declaration.Filing
import NamespaceMerge.Proofs.Declaration.Gathering
import NamespaceMerge.Proofs.Declaration.Headed
import NamespaceMerge.Proofs.Declaration.HeaderLine
import NamespaceMerge.Proofs.Declaration.LineEnds
import NamespaceMerge.Proofs.Declaration.Membership
import NamespaceMerge.Proofs.Declaration.Merged
import NamespaceMerge.Proofs.Declaration.Occurrence
import NamespaceMerge.Proofs.Declaration.Returns
import NamespaceMerge.Proofs.Declaration.Scanned
import NamespaceMerge.Proofs.Declaration.Separation
import NamespaceMerge.Proofs.Declaration.Source
import NamespaceMerge.Proofs.Declaration.Tiling
import NamespaceMerge.Proofs.File.Marker
import NamespaceMerge.Proofs.File.Overwriting
import NamespaceMerge.Proofs.Json.Keyed
import NamespaceMerge.Proofs.Json.Nesting
import NamespaceMerge.Proofs.Json.NumberText
import NamespaceMerge.Proofs.Json.OneLine
import NamespaceMerge.Proofs.Json.Quoting
import NamespaceMerge.Proofs.Json.RoundTrip
import NamespaceMerge.Proofs.Logger.Handlers
import NamespaceMerge.Proofs.Logger.Line
import NamespaceMerge.Proofs.Merging.Again
import NamespaceMerge.Proofs.Merging.Calls
import NamespaceMerge.Proofs.Merging.Companion
import NamespaceMerge.Proofs.Module.Argument
import NamespaceMerge.Proofs.Module.Flattening
import NamespaceMerge.Proofs.Module.NormalForm
import NamespaceMerge.Proofs.Module.Scope
import NamespaceMerge.Proofs.Module.Size
import NamespaceMerge.Proofs.Report.Elapsed
import NamespaceMerge.Proofs.SourceMap.Chain
import NamespaceMerge.Proofs.SourceMap.Nesting
import NamespaceMerge.Proofs.SourceMap.ReferencePattern
import NamespaceMerge.Proofs.SourceMap.Returns
import NamespaceMerge.Proofs.Text.Caseless
import NamespaceMerge.Proofs.Text.Returns
import NamespaceMerge.Proofs.Worker.Admission
import NamespaceMerge.Proofs.Worker.Bookkeeping
import NamespaceMerge.Proofs.Worker.Collecting
import NamespaceMerge.Proofs.Worker.Ending
import NamespaceMerge.Proofs.Worker.Marker
import NamespaceMerge.Proofs.Worker.Queueing
import NamespaceMerge.Proofs.Worker.Written
import NamespaceMerge.Report.Basic
import NamespaceMerge.Report.Clock
import NamespaceMerge.Report.Duration
import NamespaceMerge.Report.Timing
import NamespaceMerge.Script.Fault
import NamespaceMerge.Script.Grammar
import NamespaceMerge.Script.Grammar.Basic
import NamespaceMerge.Script.Grammar.Expression
import NamespaceMerge.Script.Grammar.Statement
import NamespaceMerge.Script.Layout
import NamespaceMerge.Script.Lexeme
import NamespaceMerge.Script.Lexer
import NamespaceMerge.Script.Mapping
import NamespaceMerge.Script.Parse
import NamespaceMerge.Script.Printer
import NamespaceMerge.Script.Syntax
import NamespaceMerge.Script.Token
import NamespaceMerge.SourceMap.DataUri
import NamespaceMerge.SourceMap.Recovery
import NamespaceMerge.SourceMap.Reference
import NamespaceMerge.SourceMap.Repair
import NamespaceMerge.Text.Base64
import NamespaceMerge.Text.Basic
import NamespaceMerge.Text.Blank
import NamespaceMerge.Text.Caseless
import NamespaceMerge.Text.Hex
import NamespaceMerge.Text.IdentifierCharacter
import NamespaceMerge.Text.Printable
import NamespaceMerge.Text.Quoted
import NamespaceMerge.Text.Utf16
import NamespaceMerge.Text.Utf8
import NamespaceMerge.Text.WordCharacter
import NamespaceMerge.Toolkit.Basic
import NamespaceMerge.Toolkit.Standard
import NamespaceMerge.Worker.Basic
import NamespaceMerge.Worker.Work
import NamespaceMerge.Worker.Write
