import EditorServices.Bus.Basic
import EditorServices.Bus.Delivery
import EditorServices.Catalogue
import EditorServices.Cli.Ask
import EditorServices.Cli.Command
import EditorServices.Cli.Options
import EditorServices.Cli.Program
import EditorServices.Cli.Run
import EditorServices.Cli.Show
import EditorServices.Completion.Cursor
import EditorServices.Completion.Item
import EditorServices.Completion.Kind
import EditorServices.Completion.Params
import EditorServices.Completion.Provider
import EditorServices.Completion.Registry
import EditorServices.Config.File
import EditorServices.Config.Merge
import EditorServices.Config.Settings
import EditorServices.Config.Sources
import EditorServices.Diagnostic
import EditorServices.Document
import EditorServices.Environment
import EditorServices.Failure
import EditorServices.FileTree
import EditorServices.Highlight.Action
import EditorServices.Highlight.Cache
import EditorServices.Highlight.Highlighter
import EditorServices.Highlight.Lexer
import EditorServices.Highlight.Lexer.Catalogue
import EditorServices.Highlight.Lexer.Json
import EditorServices.Highlight.Lexer.Names
import EditorServices.Highlight.Lexer.Words
import EditorServices.Highlight.Lines
import EditorServices.Highlight.Listed
import EditorServices.Highlight.Rendering
import EditorServices.Highlight.Request
import EditorServices.Highlight.Scope
import EditorServices.Highlight.Span
import EditorServices.Highlight.Style
import EditorServices.Highlight.Theme
import EditorServices.Highlight.Tokenizer
import EditorServices.Highlight.Workbench
import EditorServices.Highlight.Worker
import EditorServices.Host
import EditorServices.Json.Basic
import EditorServices.Json.Commented
import EditorServices.Json.Fields
import EditorServices.Json.Printer
import EditorServices.Json.Reader
import EditorServices.Language
import EditorServices.Log.Clock
import EditorServices.Log.Level
import EditorServices.Log.Line
import EditorServices.Log.State
import EditorServices.Main
import EditorServices.Models
import EditorServices.Named
import EditorServices.Number.Binary64
import EditorServices.Number.Numeral
import EditorServices.Number.Shortest
import EditorServices.Path
import EditorServices.Proofs.Config.Acceptance
import EditorServices.Proofs.Config.Merging
import EditorServices.Proofs.Config.Precedence
import EditorServices.Proofs.FileUris
import EditorServices.Proofs.Highlight.Ahead
import EditorServices.Proofs.Highlight.Ascending
import EditorServices.Proofs.Highlight.Invalidation
import EditorServices.Proofs.Highlight.MergeOrder
import EditorServices.Proofs.Highlight.PlainData
import EditorServices.Proofs.Highlight.RenderedLines
import EditorServices.Proofs.Highlight.Tokenizing
import EditorServices.Proofs.Highlight.Transparency
import EditorServices.Proofs.Json.BrokenValues
import EditorServices.Proofs.Json.DistinctNames
import EditorServices.Proofs.Json.Escapes
import EditorServices.Proofs.Json.Integers
import EditorServices.Proofs.Json.UnbrokenText
import EditorServices.Proofs.Json.WireValues
import EditorServices.Proofs.Log.OneLine
import EditorServices.Proofs.Paths
import EditorServices.Proofs.Schema.Readings
import EditorServices.Proofs.Schema.Records
import EditorServices.Proofs.Session.AnswerOrder
import EditorServices.Proofs.Session.Asking
import EditorServices.Proofs.Session.Attendance
import EditorServices.Proofs.Session.Audience
import EditorServices.Proofs.Session.Correlation
import EditorServices.Proofs.Session.Dealing
import EditorServices.Proofs.Session.DocumentChanges
import EditorServices.Proofs.Session.DocumentProtocol
import EditorServices.Proofs.Session.Documents
import EditorServices.Proofs.Session.EndOfChannel
import EditorServices.Proofs.Session.Ending
import EditorServices.Proofs.Session.FailedCalls
import EditorServices.Proofs.Session.FirstTurns
import EditorServices.Proofs.Session.Frame
import EditorServices.Proofs.Session.Handshake
import EditorServices.Proofs.Session.HandshakeOnChannel
import EditorServices.Proofs.Session.NewTasks
import EditorServices.Proofs.Session.Opening
import EditorServices.Proofs.Session.Phases
import EditorServices.Proofs.Session.Reports
import EditorServices.Proofs.Session.RequestIds
import EditorServices.Proofs.Session.RequestTable
import EditorServices.Proofs.Session.Requests
import EditorServices.Proofs.Session.Stages
import EditorServices.Proofs.Session.Subscribers
import EditorServices.Proofs.Session.Telling
import EditorServices.Proofs.Session.TellingOrder
import EditorServices.Proofs.Session.Versions
import EditorServices.Proofs.Session.Waiting
import EditorServices.Proofs.Session.WireOrder
import EditorServices.Proofs.Transport.Closing
import EditorServices.Proofs.Transport.Framing
import EditorServices.Proofs.Transport.Lifecycle
import EditorServices.Proofs.Transport.Listening
import EditorServices.Reporting
import EditorServices.Schema.Checked
import EditorServices.Schema.Issue
import EditorServices.Schema.Report
import EditorServices.Session.Basic
import EditorServices.Session.Inbound
import EditorServices.Session.Loop
import EditorServices.Session.Message
import EditorServices.Session.Play
import EditorServices.Session.Profile
import EditorServices.Session.Query
import EditorServices.Session.Trace
import EditorServices.Session.Turn
import EditorServices.Text.Blank
import EditorServices.Text.CharRange
import EditorServices.Text.Digit
import EditorServices.Text.EscapeSequence
import EditorServices.Text.IntegerText
import EditorServices.Text.LineBuffer
import EditorServices.Text.Literal
import EditorServices.Text.LoneUnit
import EditorServices.Text.LowerCase
import EditorServices.Text.Markup
import EditorServices.Text.Printable
import EditorServices.Text.Quoted
import EditorServices.Text.ShellWords
import EditorServices.Text.Split
import EditorServices.Text.StyleName
import EditorServices.Text.Utf8
import EditorServices.Text.Utf8Fault
import EditorServices.Text.Width
import EditorServices.Text.WordChar
import EditorServices.Transport.Channel
import EditorServices.Transport.Endpoint
import EditorServices.Transport.Frame
import EditorServices.Transport.Scripted
import EditorServices.Transport.Trace
import EditorServices.Uri
import EditorServices.Proofs.Completion.Merging
import EditorServices.Proofs.Bus.Delivery
import EditorServices.Proofs.Bus.Interleaving
import EditorServices.Proofs.Bus.SingleDelivery
import EditorServices.Proofs.Bus.Tickets
import EditorServices.Proofs.Session.Disposal
import EditorServices.Proofs.Cli.Teardown
import EditorServices.Proofs.Highlight.Coverage
import EditorServices.Proofs.Highlight.Accounting
import EditorServices.Proofs.Config.Loading
import EditorServices.Proofs.Session.Degrading
import EditorServices.Proofs.Completion.Consulting
import EditorServices.Proofs.Completion.Isolation
import EditorServices.Proofs.Completion.Positions
import EditorServices.Proofs.Completion.Views
import EditorServices.Proofs.References
import EditorServices.Proofs.Utf8
import EditorServices.Proofs.Config.Decorations
import EditorServices.Proofs.Config.Filling
import EditorServices.Proofs.Config.Overrides
import EditorServices.Proofs.Config.Sockets
import EditorServices.Proofs.Json.CommentedLayout
import EditorServices.Proofs.Json.CommentedTokens
import EditorServices.Proofs.Json.CommentedTrees
import EditorServices.Proofs.Json.CommentedValues
import EditorServices.Proofs.Json.FilledStrings
import EditorServices.Proofs.Json.FilledTexts
import EditorServices.Proofs.Json.PlainScalars
import EditorServices.Proofs.Json.PlainStrings
import EditorServices.Proofs.Json.PlainTrees
import EditorServices.Proofs.Json.PrintedTrees
import EditorServices.Proofs.Schema.Origins
import EditorServices.Proofs.Config.Culprits
import EditorServices.Proofs.Log.Configuring
