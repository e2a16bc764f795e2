import TapeLang.Byte
import TapeLang.Channel.Environment
import TapeLang.Channel.Sink
import TapeLang.Channel.Source
import TapeLang.CommandLine.Arguments
import TapeLang.CommandLine.Commands
import TapeLang.CommandLine.Invocation
import TapeLang.CommandLine.Usage
import TapeLang.Config
import TapeLang.Fault
import TapeLang.Instruction
import TapeLang.Instruction.OfJson
import TapeLang.Journal
import TapeLang.Json
import TapeLang.Loop.JumpTable
import TapeLang.Loop.Scan
import TapeLang.Machine.Run
import TapeLang.Machine.State
import TapeLang.Machine.Step
import TapeLang.Main
import TapeLang.Program
import TapeLang.Proofs.Accounting
import TapeLang.Proofs.BoundedHalting
import TapeLang.Proofs.BracketDepth
import TapeLang.Proofs.BracketFaults
import TapeLang.Proofs.BracketGrammar
import TapeLang.Proofs.BracketRepair
import TapeLang.Proofs.BracketSearch
import TapeLang.Proofs.CellEdits
import TapeLang.Proofs.Comments
import TapeLang.Proofs.EchoProgram
import TapeLang.Proofs.EntryPoints
import TapeLang.Proofs.FaultSites
import TapeLang.Proofs.FocusedTape
import TapeLang.Proofs.FrontEnds
import TapeLang.Proofs.JumpLayout
import TapeLang.Proofs.JumpsTaken
import TapeLang.Proofs.LoopControl
import TapeLang.Proofs.LoopTree
import TapeLang.Proofs.MachineRuns
import TapeLang.Proofs.MachineSafety
import TapeLang.Proofs.Representations
import TapeLang.Proofs.ReverseProgram
import TapeLang.Proofs.ServiceAnswers
import TapeLang.Proofs.SharedEnvironment
import TapeLang.Proofs.SinkCounts
import TapeLang.Proofs.StepBudget
import TapeLang.Proofs.StepRequests
import TapeLang.Proofs.StructuredLoops
import TapeLang.Proofs.TapeExtension
import TapeLang.Proofs.TapeStore
import TapeLang.Proofs.TapeWindows
import TapeLang.Proofs.UnreadInput
import TapeLang.Proofs.ValidationReports
import TapeLang.Proofs.WrittenRequests
import TapeLang.Proofs.ZeroTail
import TapeLang.Release
import TapeLang.Report
import TapeLang.Service.Readiness
import TapeLang.Service.Request
import TapeLang.Service.Routes
import TapeLang.Setting
import TapeLang.Text.Numeral
import TapeLang.Text.Printable
import TapeLang.Text.Quoted
import TapeLang.Text.Utf8
import TapeLang.Validation
