import CodeAgent.Text.Case
import CodeAgent.Text.Word
import CodeAgent.Text.Quoted
import CodeAgent.Digest.Sha256
import CodeAgent.Number.Decimal
import CodeAgent.Json.Reader
import CodeAgent.Json.Printer
import CodeAgent.Agent.Reply
import CodeAgent.Agent.Prompt
import CodeAgent.Agent.Report
import CodeAgent.Edit.Blocks
import CodeAgent.Edit.Failure
import CodeAgent.Command.Result
import CodeAgent.Model.Fault
import CodeAgent.Config
import CodeAgent.Source.Lexer
import CodeAgent.Source.Expression
import CodeAgent.Source.Statement
import CodeAgent.Source.Definitions
import CodeAgent.Config.Load
import CodeAgent.Disk.Scan
import CodeAgent.Store.Similarity
import CodeAgent.Host.Usual
import CodeAgent.Store.Document
import CodeAgent.Store.Place
import CodeAgent.Store.Raw
import CodeAgent.Watch.Filter
import CodeAgent.Model.Embedding
import CodeAgent.Command.Gate
import CodeAgent.Text.Glob
import CodeAgent.Shell.Script
import CodeAgent.Pattern.Reader
import CodeAgent.Pattern.Match
import CodeAgent.Tool.Files
import CodeAgent.Tool.Search
import CodeAgent.Graph.Update
import CodeAgent.Graph.Report
import CodeAgent.Index.Reconcile
import CodeAgent.Workspace.Report
import CodeAgent.Workspace.Watch
import CodeAgent.Agent.Task
import CodeAgent.Service.Answer
import CodeAgent.Agent.Wire
import CodeAgent.CommandLine.Run
import CodeAgent.Main
import CodeAgent.Command.Schedule
import CodeAgent.Agent.Crowd
import CodeAgent.Proofs.Table
import CodeAgent.Proofs.Text.Utf8
import CodeAgent.Proofs.Disk.Tree
import CodeAgent.Proofs.Disk.Walk
import CodeAgent.Proofs.Disk.Change
import CodeAgent.Proofs.Disk.Extend
import CodeAgent.Proofs.Edit.RollBack
import CodeAgent.Proofs.Edit.Sequence
import CodeAgent.Proofs.Edit.Blocks
import CodeAgent.Proofs.Tool.Write
import CodeAgent.Proofs.Command.Gate
import CodeAgent.Proofs.Agent.Crowd
import CodeAgent.Index.History
import CodeAgent.Graph.History
import CodeAgent.Proofs.Text.Lines
import CodeAgent.Proofs.Disk.Name
import CodeAgent.Proofs.Disk.Scan
import CodeAgent.Proofs.Watch.Filter
import CodeAgent.Proofs.Graph.Build
import CodeAgent.Proofs.Graph.Fault
import CodeAgent.Proofs.Graph.History
import CodeAgent.Proofs.Graph.Notify
import CodeAgent.Proofs.Json.Printer
import CodeAgent.Proofs.Source.Reader
import CodeAgent.Proofs.Source.Statement
import CodeAgent.Proofs.Source.Lexer
import CodeAgent.Proofs.Source.Chunk
import CodeAgent.Proofs.Store.Records
import CodeAgent.Store.History
import CodeAgent.Proofs.Store.Document
import CodeAgent.Proofs.Store.Save
import CodeAgent.Proofs.Index.Name
import CodeAgent.Proofs.Index.Update
import CodeAgent.Proofs.Index.Call
import CodeAgent.Proofs.Index.Notice
import CodeAgent.Proofs.Index.Reconcile
import CodeAgent.Proofs.Index.Success
import CodeAgent.Proofs.Index.Mirror
import CodeAgent.Proofs.Workspace.Watch
import CodeAgent.Proofs.Number.Decimal
import CodeAgent.Proofs.Number.Rounding
import CodeAgent.Proofs.Number.Shortest
import CodeAgent.Proofs.Json.Reader
import CodeAgent.Proofs.Json.RoundTrip
import CodeAgent.Proofs.Agent.Parameters
import CodeAgent.Proofs.Agent.Reply
import CodeAgent.Proofs.Agent.Wire
import CodeAgent.Proofs.Agent.Course
import CodeAgent.Proofs.Agent.Task
import CodeAgent.Proofs.Service.Conversation
import CodeAgent.Proofs.Model.Completion
import CodeAgent.Index.Turns
import CodeAgent.Proofs.Disk.Inside
import CodeAgent.Proofs.Store.Replace
import CodeAgent.Proofs.Store.Persist
import CodeAgent.Proofs.Index.Idle
import CodeAgent.Proofs.Index.Turns
import CodeAgent.Proofs.Source.Imports
import CodeAgent.Agent.Reporter
import CodeAgent.Service.Stream
import CodeAgent.Proofs.Disk.Resolve
import CodeAgent.Proofs.Disk.Sources
import CodeAgent.Proofs.Graph.Sources
import CodeAgent.Proofs.Service.Switch
import CodeAgent.Proofs.Agent.Reporter
import CodeAgent.Proofs.Service.Stream
import CodeAgent.Proofs.Disk.Outside
import CodeAgent.Proofs.Disk.Alike
import CodeAgent.Proofs.Disk.OutsideScan
import CodeAgent.Proofs.Tool.Outside
import CodeAgent.Proofs.Tool.Contained
import CodeAgent.Proofs.Graph.Outside
import CodeAgent.Proofs.Store.Outside
import CodeAgent.Proofs.Index.Unseen
import CodeAgent.Proofs.Workspace.Outside
import CodeAgent.Proofs.Workspace.Discreet
import CodeAgent.Proofs.Agent.Outage
import CodeAgent.Proofs.Graph.Radius
import CodeAgent.Proofs.Agent.Prose
import CodeAgent.Proofs.Graph.Canonical
import CodeAgent.Proofs.Workspace.Listing
import CodeAgent.Proofs.Agent.Manifest
import CodeAgent.Proofs.Graph.Split
import CodeAgent.Proofs.Store.Without
import CodeAgent.Proofs.Index.Reachable
import CodeAgent.Proofs.Index.Confined
import CodeAgent.Proofs.Index.Resend
import CodeAgent.Proofs.Store.Load
import CodeAgent.Proofs.Store.Raw
import CodeAgent.Proofs.Edit.InTurn
import CodeAgent.Proofs.Edit.Markers
import CodeAgent.Proofs.Tool.Rewrite
import CodeAgent.Proofs.Tool.Numbered
import CodeAgent.Proofs.Tool.Diffs
import CodeAgent.Proofs.Source.Definitions
import CodeAgent.Proofs.Store.Search
import CodeAgent.Proofs.Model.Embedding
import CodeAgent.Proofs.Config.Load
import CodeAgent.Proofs.Json.Front
import CodeAgent.Proofs.Agent.Scan
