import BraceBalance.Batch
import BraceBalance.Cache.Basic
import BraceBalance.Cache.Record
import BraceBalance.Checker
import BraceBalance.Command.Duration
import BraceBalance.Command.Flag
import BraceBalance.Command.Help
import BraceBalance.Command.Line
import BraceBalance.Command.LogText
import BraceBalance.Command.Run
import BraceBalance.Command.Watch
import BraceBalance.Digest
import BraceBalance.Failure
import BraceBalance.FileTree.Basic
import BraceBalance.FileTree.Error
import BraceBalance.FileTree.Update
import BraceBalance.Find
import BraceBalance.Json
import BraceBalance.Log
import BraceBalance.Main
import BraceBalance.Output
import BraceBalance.Path.Glob
import BraceBalance.Path.Lexical
import BraceBalance.Pretty.Column
import BraceBalance.Pretty.Draft
import BraceBalance.Pretty.Indent
import BraceBalance.Pretty.Style
import BraceBalance.Proofs.Cache.Record
import BraceBalance.Proofs.Cache.Transparency
import BraceBalance.Proofs.Checker.Issues
import BraceBalance.Proofs.Checker.LineBreaks
import BraceBalance.Proofs.Checker.Run
import BraceBalance.Proofs.FileTree.Update
import BraceBalance.Proofs.Scan.BlockComments
import BraceBalance.Proofs.Scan.Completion
import BraceBalance.Proofs.Scan.Continuation
import BraceBalance.Proofs.Scan.Grammar
import BraceBalance.Proofs.Scan.Layers
import BraceBalance.Proofs.Scan.Lexemes
import BraceBalance.Proofs.Scan.Lexer
import BraceBalance.Proofs.Scan.Likeness
import BraceBalance.Proofs.Scan.Matching
import BraceBalance.Proofs.Scan.Moves
import BraceBalance.Proofs.Scan.Positions
import BraceBalance.Proofs.Scan.Trace
import BraceBalance.Proofs.Text.Lines
import BraceBalance.Proofs.Text.Utf8
import BraceBalance.Proofs.Watch.Debouncer
import BraceBalance.Proofs.Watch.Delivery
import BraceBalance.Report.Issue
import BraceBalance.Report.Options
import BraceBalance.Report.Severity
import BraceBalance.Report.Summary
import BraceBalance.Scan.OpenStack
import BraceBalance.Scan.Opener
import BraceBalance.Scan.Run
import BraceBalance.Scan.State
import BraceBalance.Scan.Verdict
import BraceBalance.Settings.Basic
import BraceBalance.Settings.Decode
import BraceBalance.Settings.Load
import BraceBalance.Text.Blank
import BraceBalance.Text.Bytes
import BraceBalance.Text.Keyword
import BraceBalance.Text.Lines
import BraceBalance.Text.Printable
import BraceBalance.Text.Quoted
import BraceBalance.Text.Utf8
import BraceBalance.Watch.Debouncer
import BraceBalance.Watch.Watcher
import BraceBalance.Yaml.Cursor
import BraceBalance.Yaml.Input
import BraceBalance.Yaml.Lexer
import BraceBalance.Yaml.Node
import BraceBalance.Yaml.Number
import BraceBalance.Yaml.Property
import BraceBalance.Yaml.Scalar
import BraceBalance.Yaml.ScalarText
import BraceBalance.Yaml.Timestamp
import BraceBalance.Yaml.Token
import BraceBalance.Proofs.Watch.Coalescing
import BraceBalance.Proofs.FileTree.Resolution
import BraceBalance.Proofs.Find.Paths
import BraceBalance.Proofs.Batch.Pool
import BraceBalance.Proofs.Batch.Schedules
import BraceBalance.Proofs.FileTree.Growth
import BraceBalance.Proofs.Report.Context
import BraceBalance.Proofs.Cache.History
import BraceBalance.Proofs.Find.Descent
import BraceBalance.Proofs.Batch.Directories
import BraceBalance.Proofs.Watch.Wanted
import BraceBalance.Proofs.Scan.Backslashes
import BraceBalance.Proofs.Scan.Chunks
import BraceBalance.Proofs.FileTree.Entries
import BraceBalance.Proofs.Find.Walk
import BraceBalance.Proofs.Path.Clean
import BraceBalance.Proofs.Path.Literal
import BraceBalance.Proofs.Checker.Paths
import BraceBalance.Proofs.Pretty.Indent
import BraceBalance.Proofs.Pretty.Snippet
import BraceBalance.Proofs.Report.Marks
import BraceBalance.Proofs.Pretty.Underline
import BraceBalance.Proofs.Report.Findings
import BraceBalance.Proofs.Memory
import BraceBalance.Proofs.Scan.Conservation
import BraceBalance.Proofs.Word
import BraceBalance.Proofs.Pretty.Words
import BraceBalance.Proofs.Pretty.Faults
