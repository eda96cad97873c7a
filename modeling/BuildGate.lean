import BuildGate.Action
import BuildGate.Calendar
import BuildGate.CommandLine
import BuildGate.Compiler.Options
import BuildGate.Compiler.Output
import BuildGate.Compiler.Program
import BuildGate.Console
import BuildGate.Decimal.Binary64
import BuildGate.Decimal.Shortest
import BuildGate.Disk
import BuildGate.Engine
import BuildGate.Error
import BuildGate.Finding.Diagnostic
import BuildGate.Finding.Kind
import BuildGate.Finding.Level
import BuildGate.Finding.Message
import BuildGate.Gate
import BuildGate.Glob.Match
import BuildGate.Glob.Pattern
import BuildGate.Glob.Search
import BuildGate.Host
import BuildGate.Invocation
import BuildGate.IoError
import BuildGate.Json.Form
import BuildGate.Json.Number
import BuildGate.Json.Quoted
import BuildGate.Json.Value
import BuildGate.LineMap
import BuildGate.Lint.Output
import BuildGate.Lint.Tool
import BuildGate.Main
import BuildGate.Outcome
import BuildGate.Path
import BuildGate.Project
import BuildGate.Proofs.Action
import BuildGate.Proofs.Action.InStep
import BuildGate.Proofs.Action.Raises
import BuildGate.Proofs.Compiler.Build
import BuildGate.Proofs.Compiler.Chain
import BuildGate.Proofs.Compiler.Cited
import BuildGate.Proofs.Compiler.Failure
import BuildGate.Proofs.Compiler.Form
import BuildGate.Proofs.Compiler.Fresh
import BuildGate.Proofs.Compiler.Layout
import BuildGate.Proofs.Compiler.Opening
import BuildGate.Proofs.Compiler.Options
import BuildGate.Proofs.Compiler.Printer
import BuildGate.Proofs.Compiler.Ranks
import BuildGate.Proofs.Compiler.Rebuild
import BuildGate.Proofs.Console
import BuildGate.Proofs.Disk
import BuildGate.Proofs.Disk.Append
import BuildGate.Proofs.Disk.Relative
import BuildGate.Proofs.Disk.Spelling
import BuildGate.Proofs.Disk.Steps
import BuildGate.Proofs.Disk.Tree
import BuildGate.Proofs.Disk.Twin
import BuildGate.Proofs.Except
import BuildGate.Proofs.Frame
import BuildGate.Proofs.Gate
import BuildGate.Proofs.Gate.Conduct
import BuildGate.Proofs.Gate.Contract
import BuildGate.Proofs.Gate.Fault
import BuildGate.Proofs.Gate.Matches
import BuildGate.Proofs.Gate.Presentation
import BuildGate.Proofs.Gate.Record
import BuildGate.Proofs.Gate.Seed
import BuildGate.Proofs.Gate.Serve
import BuildGate.Proofs.Gate.Turns
import BuildGate.Proofs.Glob.Glue
import BuildGate.Proofs.Glob.Plain
import BuildGate.Proofs.Glob.Trail
import BuildGate.Proofs.Glob.Twin
import BuildGate.Proofs.Host.Refusal
import BuildGate.Proofs.Invocation
import BuildGate.Proofs.Json.Form
import BuildGate.Proofs.Json.Number
import BuildGate.Proofs.Json.Quoted
import BuildGate.Proofs.LineMap
import BuildGate.Proofs.LineMap.Inverse
import BuildGate.Proofs.LineMap.Terminators
import BuildGate.Proofs.Lint.Each
import BuildGate.Proofs.Lint.Listing
import BuildGate.Proofs.Lint.Process
import BuildGate.Proofs.Lint.Silence
import BuildGate.Proofs.Lint.Written
import BuildGate.Proofs.Machine
import BuildGate.Proofs.Path.Parent
import BuildGate.Proofs.Project
import BuildGate.Proofs.Project.Exclusion
import BuildGate.Proofs.Project.Names
import BuildGate.Proofs.Project.Renamed
import BuildGate.Proofs.Project.Selection
import BuildGate.Proofs.Project.Sought
import BuildGate.Proofs.Report.Agreement
import BuildGate.Proofs.Report.Color
import BuildGate.Proofs.Report.Exact
import BuildGate.Proofs.Report.Order
import BuildGate.Proofs.Report.Place
import BuildGate.Proofs.Report.Readback
import BuildGate.Proofs.Report.Unit
import BuildGate.Proofs.Session
import BuildGate.Proofs.Session.Linting
import BuildGate.Proofs.Session.Spelling
import BuildGate.Proofs.Settings.Base
import BuildGate.Proofs.Settings.Document
import BuildGate.Proofs.Settings.Equality
import BuildGate.Proofs.Settings.Precedence
import BuildGate.Proofs.Settings.Root
import BuildGate.Proofs.Text.Digit
import BuildGate.Proofs.Text.Lines
import BuildGate.Proofs.Text.Order
import BuildGate.Proofs.Totals
import BuildGate.Report.Line
import BuildGate.Report.Paint
import BuildGate.Report.Text
import BuildGate.Session
import BuildGate.Settings.Basic
import BuildGate.Settings.Format
import BuildGate.Settings.Load
import BuildGate.Text.Blank
import BuildGate.Text.Digit
import BuildGate.Text.Lines
import BuildGate.Text.Utf8
import BuildGate.Toml.Document
import BuildGate.Toml.Scalar
import BuildGate.Toml.Value
import BuildGate.Word
import BuildGate.Yaml.Cursor
import BuildGate.Yaml.Node
import BuildGate.Yaml.Scalar
import BuildGate.Yaml.Tag
import BuildGate.Yaml.Token
import BuildGate.Yaml.Value
