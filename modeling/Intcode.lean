import Intcode.Text.CharClass
import Intcode.Text.Blank
import Intcode.Text.DecimalDigit
import Intcode.Text.Printable
import Intcode.Text.Quoted
import Intcode.Text.Glyph
import Intcode.Text.Lines
import Intcode.Text.Utf8
import Intcode.Numeral
import Intcode.Word
import Intcode.Opcode
import Intcode.Fault
import Intcode.Memory
import Intcode.Operand
import Intcode.Instruction
import Intcode.Instruction.Decode
import Intcode.Channel.Queue
import Intcode.Channel.Fixture
import Intcode.Channel.Terminal
import Intcode.Channel
import Intcode.Event
import Intcode.Machine
import Intcode.Machine.Log
import Intcode.Machine.Command
import Intcode.Chain
import Intcode.Arrangement
import Intcode.Chain.Search
import Intcode.Binary64
import Intcode.Binary64.Shortest
import Intcode.Timestamp
import Intcode.Value
import Intcode.Conversion
import Intcode.Config
import Intcode.Settings
import Intcode.Path
import Intcode.Files
import Intcode.Image
import Intcode.Yaml.Cursor
import Intcode.Yaml.Flaw
import Intcode.Yaml.Supply
import Intcode.Yaml.Scalar
import Intcode.Yaml.Token
import Intcode.Yaml.Node
import Intcode.Yaml.Plain
import Intcode.Yaml.Document
import Intcode.Config.Source
import Intcode.Yaml.Reader
import Intcode.CommandLine.Options
import Intcode.CommandLine.Usage
import Intcode.CommandLine.Run
import Intcode.Main
import Intcode.Proofs.Action
import Intcode.Proofs.Run
import Intcode.Proofs.TickLimit
import Intcode.Proofs.Decoding
import Intcode.Proofs.RawStep
import Intcode.Proofs.FaultKind
import Intcode.Proofs.Lockstep
import Intcode.Proofs.FixtureRun
import Intcode.Proofs.WordMemory
import Intcode.Proofs.NumberLines
import Intcode.Proofs.TerminalRun
import Intcode.Proofs.Orders
import Intcode.Proofs.BestOrder
import Intcode.Proofs.FailedStep
import Intcode.Proofs.Session
import Intcode.Proofs.Residue
import Intcode.Proofs.Exchange
import Intcode.Proofs.Reachable
import Intcode.Proofs.Access
import Intcode.Proofs.Extension
import Intcode.Proofs.Causality
import Intcode.Proofs.LayeredConfig
import Intcode.Proofs.Stages
import Intcode.Proofs.CommandOutcome
import Intcode.Proofs.Encoding
import Intcode.Proofs.ImageText
import Intcode.Proofs.Undecodable
import Intcode.Proofs.ValidConfig
import Intcode.Proofs.Calls
import Intcode.Proofs.Recurrence
import Intcode.Proofs.LastWriter
import Intcode.Proofs.ConfigFailures
import Intcode.Proofs.RunLog
import Intcode.Proofs.StepTrace
import Intcode.Proofs.Traffic
import Intcode.Proofs.TerminalTraffic
import Intcode.Proofs.FirstLine
import Intcode.Proofs.PhaseText
import Intcode.Proofs.PhaseWords
import Intcode.Proofs.WordArithmetic
import Intcode.Proofs.Mnemonics
import Intcode.Proofs.Verbosity
import Intcode.Proofs.WrittenFaults
