import LineAssist.Backend
import LineAssist.Backend.Interleaving
import LineAssist.Calendar
import LineAssist.Catalog.Basic
import LineAssist.Catalog.Completion
import LineAssist.Catalog.Loading
import LineAssist.Catalog.Reading
import LineAssist.CommandLine
import LineAssist.Editor.Document
import LineAssist.Editor.Events
import LineAssist.Editor.Items
import LineAssist.Editor.OpenDocuments
import LineAssist.Editor.Replacement
import LineAssist.Editor.RunRequest
import LineAssist.Editor.Session
import LineAssist.Editor.SideView
import LineAssist.Editor.Watch
import LineAssist.Entries
import LineAssist.Execution
import LineAssist.Files
import LineAssist.Json.Basic
import LineAssist.Json.Reading
import LineAssist.Json.Writing
import LineAssist.Line.Arguments
import LineAssist.Line.Context
import LineAssist.Line.Node
import LineAssist.Line.QueryParameter
import LineAssist.Line.Token
import LineAssist.LiveResult.Drive
import LineAssist.LiveResult.Interleaving
import LineAssist.LiveResult.Operation
import LineAssist.LiveResult.Pipeline
import LineAssist.LiveResult.Rehearsal
import LineAssist.LiveResult.Render
import LineAssist.LiveResult.Wiring
import LineAssist.Logging
import LineAssist.Main
import LineAssist.Number.Binary64
import LineAssist.Number.Reading
import LineAssist.Number.Shortest
import LineAssist.Path
import LineAssist.Poller
import LineAssist.Poller.Interleaving
import LineAssist.Proofs.Backend.ToolLookup
import LineAssist.Proofs.Catalog.Aliases
import LineAssist.Proofs.Catalog.Children
import LineAssist.Proofs.Catalog.Keys
import LineAssist.Proofs.Catalog.Listing
import LineAssist.Proofs.Catalog.LoadFaults
import LineAssist.Proofs.Catalog.Nameless
import LineAssist.Proofs.Catalog.Snippets
import LineAssist.Proofs.Computation
import LineAssist.Proofs.Editor.Acceptance
import LineAssist.Proofs.Editor.FilledSnippet
import LineAssist.Proofs.Editor.Hovering
import LineAssist.Proofs.Editor.Insertion
import LineAssist.Proofs.Editor.ParameterItems
import LineAssist.Proofs.Editor.SideView
import LineAssist.Proofs.Editor.SnippetSyntax
import LineAssist.Proofs.Editor.StatusNotices
import LineAssist.Proofs.Editor.Walk
import LineAssist.Proofs.Editor.WholeDocument
import LineAssist.Proofs.Entries
import LineAssist.Proofs.Files
import LineAssist.Proofs.Files.Writing
import LineAssist.Proofs.Json.Depth
import LineAssist.Proofs.Json.RoundTrip
import LineAssist.Proofs.Json.Writable
import LineAssist.Proofs.Line.Arguments
import LineAssist.Proofs.Line.Attribution
import LineAssist.Proofs.Line.Covering
import LineAssist.Proofs.Line.Cursor
import LineAssist.Proofs.Line.Finishing
import LineAssist.Proofs.Line.Keystroke
import LineAssist.Proofs.Line.LastToken
import LineAssist.Proofs.Line.Nodes
import LineAssist.Proofs.Line.QueryOccurrence
import LineAssist.Proofs.Line.Roles
import LineAssist.Proofs.Line.Subcommands
import LineAssist.Proofs.Line.Tokenization
import LineAssist.Proofs.Line.Truncation
import LineAssist.Proofs.Line.WrittenQuery
import LineAssist.Proofs.Line.WrittenWords
import LineAssist.Proofs.LiveResult.Consistency
import LineAssist.Proofs.LiveResult.Drive
import LineAssist.Proofs.LiveResult.History
import LineAssist.Proofs.LiveResult.Interleaving
import LineAssist.Proofs.LiveResult.Openings
import LineAssist.Proofs.LiveResult.Overlap
import LineAssist.Proofs.LiveResult.PrintedValue
import LineAssist.Proofs.LiveResult.RenderFaults
import LineAssist.Proofs.LiveResult.Restart
import LineAssist.Proofs.LiveResult.Script
import LineAssist.Proofs.LiveResult.View
import LineAssist.Proofs.LiveResult.WaitingQuery
import LineAssist.Proofs.LiveResult.Wiring
import LineAssist.Proofs.Number.Overflow
import LineAssist.Proofs.Path
import LineAssist.Proofs.Poller.SingleLoop
import LineAssist.Proofs.Query.Calls
import LineAssist.Proofs.Query.Evaluation
import LineAssist.Proofs.Query.Operations
import LineAssist.Proofs.Query.Parts
import LineAssist.Proofs.Query.SyntaxFailures
import LineAssist.Proofs.Query.Within
import LineAssist.Proofs.Settings.Degrading
import LineAssist.Proofs.Text.Digits
import LineAssist.Proofs.Text.Lines
import LineAssist.Proofs.Text.Parts
import LineAssist.Proofs.Text.Utf8
import LineAssist.Proofs.Text.Words
import LineAssist.Proofs.Uri
import LineAssist.Proofs.Yaml.Composing
import LineAssist.Proofs.Yaml.Scanning
import LineAssist.Proofs.Yaml.TokenStream
import LineAssist.Proofs.Yaml.Values
import LineAssist.Query.Eval
import LineAssist.Query.Expr
import LineAssist.Query.Function
import LineAssist.Query.Marking
import LineAssist.Query.Sorting
import LineAssist.Query.Token
import LineAssist.Query.Value
import LineAssist.Settings
import LineAssist.Shell.Arithmetic
import LineAssist.Shell.MachineWord
import LineAssist.Shell.Printing
import LineAssist.Shell.Run
import LineAssist.Shell.Syntax
import LineAssist.Shell.Tool
import LineAssist.Text.Basic
import LineAssist.Text.Digit
import LineAssist.Text.Lines
import LineAssist.Text.Printable
import LineAssist.Text.Quoted
import LineAssist.Text.Utf8
import LineAssist.Toml.Basic
import LineAssist.Toml.Reading
import LineAssist.Toml.Scalar
import LineAssist.Unreachable
import LineAssist.Uri
import LineAssist.Yaml.Cursor
import LineAssist.Yaml.Meaning
import LineAssist.Yaml.Merge
import LineAssist.Yaml.Node
import LineAssist.Yaml.Scalar
import LineAssist.Yaml.Token
import LineAssist.Yaml.TokenStream
import LineAssist.Yaml.Value
