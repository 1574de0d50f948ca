import JobShell.Command.Basic
import JobShell.Command.Connector
import JobShell.Command.Redirection
import JobShell.CommandLine
import JobShell.Decimal
import JobShell.Descriptors
import JobShell.Environment
import JobShell.Errno
import JobShell.Failure
import JobShell.History
import JobShell.Home
import JobShell.Job.Action
import JobShell.Job.Basic
import JobShell.Job.Process
import JobShell.Job.Table
import JobShell.Least
import JobShell.Machine.Basic
import JobShell.Machine.Boot
import JobShell.Machine.Files
import JobShell.Machine.Interpreter
import JobShell.Machine.Kernel
import JobShell.Machine.Locate
import JobShell.Machine.Run
import JobShell.Machine.Signals
import JobShell.Machine.Transfer
import JobShell.Machine.Typing
import JobShell.Main
import JobShell.Options
import JobShell.Parser.Continuation
import JobShell.Parser.Run
import JobShell.Parser.Scan
import JobShell.Parser.State
import JobShell.Program.Amount
import JobShell.Program.Basic
import JobShell.Program.ByteClass
import JobShell.Program.Cat
import JobShell.Program.Count
import JobShell.Program.Directive
import JobShell.Program.Ends
import JobShell.Program.Ends.Head
import JobShell.Program.Ends.Tail
import JobShell.Program.Escape
import JobShell.Program.Flags
import JobShell.Program.Floating
import JobShell.Program.Floating.Written
import JobShell.Program.Grep
import JobShell.Program.Grep.Colors
import JobShell.Program.Grep.Search
import JobShell.Program.Grep.Wish
import JobShell.Program.Installed
import JobShell.Program.Numeral
import JobShell.Program.Pattern
import JobShell.Program.Pattern.Bracket
import JobShell.Program.Pattern.Ranked
import JobShell.Program.Pattern.Ranked.Class
import JobShell.Program.Pattern.Ranked.Escape
import JobShell.Program.Pattern.Ranked.Fault
import JobShell.Program.Pattern.Ranked.Group
import JobShell.Program.Pattern.Ranked.Property
import JobShell.Program.Pattern.Ranked.Reader
import JobShell.Program.Pattern.Ranked.Repeat
import JobShell.Program.Pattern.Written
import JobShell.Program.Print
import JobShell.Program.Sh.Arithmetic
import JobShell.Program.Sh.Builtin.Basic
import JobShell.Program.Sh.Builtin.Directory
import JobShell.Program.Sh.Builtin.Input
import JobShell.Program.Sh.Builtin.Job
import JobShell.Program.Sh.Builtin.Limit
import JobShell.Program.Sh.Builtin.Name
import JobShell.Program.Sh.Builtin.Output
import JobShell.Program.Sh.Builtin.Signal
import JobShell.Program.Sh.Builtin.Test
import JobShell.Program.Sh.Builtin.Variable
import JobShell.Program.Sh.Control
import JobShell.Program.Sh.Expand
import JobShell.Program.Sh.Feed
import JobShell.Program.Sh.Field
import JobShell.Program.Sh.Glob
import JobShell.Program.Sh.Grammar
import JobShell.Program.Sh.Job
import JobShell.Program.Sh.Pattern
import JobShell.Program.Sh.Redirect
import JobShell.Program.Sh.Run
import JobShell.Program.Sh.Search
import JobShell.Program.Sh.Simple
import JobShell.Program.Sh.Source
import JobShell.Program.Sh.Start
import JobShell.Program.Sh.State
import JobShell.Program.Sh.Token
import JobShell.Program.Sh.Trap
import JobShell.Program.Sh.Tree
import JobShell.Program.Sh.Word
import JobShell.Program.Sorting
import JobShell.Program.Sorting.Collation
import JobShell.Program.Sorting.Key
import JobShell.Program.Sorting.Version
import JobShell.Program.Translate
import JobShell.Program.WrittenSet
import JobShell.Proofs.Job.Announcing
import JobShell.Proofs.Job.Awaiting
import JobShell.Proofs.Job.Codes
import JobShell.Proofs.Job.Collecting
import JobShell.Proofs.Job.Finality
import JobShell.Proofs.Job.Focus
import JobShell.Proofs.Job.Polling
import JobShell.Proofs.Job.Registration
import JobShell.Proofs.Job.Reporting
import JobShell.Proofs.Job.Signalling
import JobShell.Proofs.Kernel.Arrival
import JobShell.Proofs.Kernel.Basic
import JobShell.Proofs.Kernel.Holding
import JobShell.Proofs.Kernel.Pipes
import JobShell.Proofs.Parser.Asking
import JobShell.Proofs.Parser.Coherence
import JobShell.Proofs.Parser.Comments
import JobShell.Proofs.Parser.Copying
import JobShell.Proofs.Parser.Course
import JobShell.Proofs.Parser.Documents
import JobShell.Proofs.Parser.Extension
import JobShell.Proofs.Parser.Failing
import JobShell.Proofs.Parser.Grammar
import JobShell.Proofs.Parser.Joining
import JobShell.Proofs.Parser.Nesting
import JobShell.Proofs.Parser.Prefixes
import JobShell.Proofs.Parser.Printed
import JobShell.Proofs.Parser.Quoted
import JobShell.Proofs.Parser.Recalled
import JobShell.Proofs.Parser.Safety
import JobShell.Proofs.Parser.Sources
import JobShell.Proofs.Parser.Step
import JobShell.Proofs.Parser.Token
import JobShell.Proofs.Parser.Words
import JobShell.Proofs.Parser.Written
import JobShell.Proofs.Redirect.Agreement
import JobShell.Proofs.Redirect.Calls
import JobShell.Proofs.Redirect.Document
import JobShell.Proofs.Redirect.Effect
import JobShell.Proofs.Redirect.Frame
import JobShell.Proofs.Redirect.Order
import JobShell.Proofs.Redirect.Restore
import JobShell.Proofs.Script.Accounting
import JobShell.Proofs.Script.Feeding
import JobShell.Proofs.Script.Reading
import JobShell.Proofs.Script.Segments
import JobShell.Proofs.Script.Sharing
import JobShell.Proofs.Sequencer.AndOr
import JobShell.Proofs.Sequencer.Cutting
import JobShell.Proofs.Shell.Bounds
import JobShell.Proofs.Shell.Custody
import JobShell.Proofs.Shell.Inheritance
import JobShell.Proofs.Shell.Killing
import JobShell.Proofs.Shell.Leaving
import JobShell.Proofs.Shell.Notice
import JobShell.Proofs.Shell.Notification
import JobShell.Proofs.Shell.Placing
import JobShell.Proofs.Shell.Restoration
import JobShell.Proofs.Shell.Resumption
import JobShell.Proofs.Shell.Returning
import JobShell.Proofs.Shell.Statuses
import JobShell.Proofs.Shell.Stillness
import JobShell.Proofs.Shell.Suspension
import JobShell.Proofs.Shell.Wiring
import JobShell.Proofs.Shell.Work
import JobShell.Proofs.Sys.Calls
import JobShell.Proofs.Sys.Output
import JobShell.Proofs.Sys.Progress
import JobShell.Script.Lines
import JobShell.Script.Source
import JobShell.Sequencer
import JobShell.Session
import JobShell.Shell.Builtin
import JobShell.Shell.JobControl
import JobShell.Shell.Launch
import JobShell.Shell.Redirect
import JobShell.Shell.Script
import JobShell.Shell.Start
import JobShell.Shell.State
import JobShell.Signal
import JobShell.Status
import JobShell.Sys.Basic
import JobShell.Sys.Call
import JobShell.Sys.Execute
import JobShell.Sys.LineBuffer
import JobShell.Sys.Stream
import JobShell.Text.Bytes
import JobShell.Text.Cluster
import JobShell.Text.Cluster.Table
import JobShell.Text.Quoted
import JobShell.Text.Ranges
