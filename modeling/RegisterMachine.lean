import RegisterMachine.Assembly.Encode
import RegisterMachine.Assembly.Listing
import RegisterMachine.Assembly.Literal
import RegisterMachine.Assembly.Token
import RegisterMachine.Command.Arguments
import RegisterMachine.Command.Assemble
import RegisterMachine.Command.Emulate
import RegisterMachine.Command.Path
import RegisterMachine.Command.Report
import RegisterMachine.Config.Basic
import RegisterMachine.Config.Load
import RegisterMachine.Config.Value
import RegisterMachine.Event
import RegisterMachine.Execution
import RegisterMachine.Failure
import RegisterMachine.Instruction.Basic
import RegisterMachine.Instruction.Opcode
import RegisterMachine.Instruction.Register
import RegisterMachine.Machine.Basic
import RegisterMachine.Machine.Fault
import RegisterMachine.Machine.Fetch
import RegisterMachine.Machine.Run
import RegisterMachine.Machine.Step
import RegisterMachine.Main
import RegisterMachine.Notice
import RegisterMachine.Numeric.Binary64
import RegisterMachine.Numeric.Decimal
import RegisterMachine.Numeric.Shortest
import RegisterMachine.Numeric.Word
import RegisterMachine.Proofs.Alignment
import RegisterMachine.Proofs.CaseFolding
import RegisterMachine.Proofs.Conclusion
import RegisterMachine.Proofs.Containment
import RegisterMachine.Proofs.Control
import RegisterMachine.Proofs.Decoding
import RegisterMachine.Proofs.Diagnostics
import RegisterMachine.Proofs.Display
import RegisterMachine.Proofs.Duration
import RegisterMachine.Proofs.Effect
import RegisterMachine.Proofs.ExactArithmetic
import RegisterMachine.Proofs.FlushRate
import RegisterMachine.Proofs.ForwardJumps
import RegisterMachine.Proofs.History
import RegisterMachine.Proofs.Joining
import RegisterMachine.Proofs.LineGrammar
import RegisterMachine.Proofs.LiteralGrammar
import RegisterMachine.Proofs.LongerProgram
import RegisterMachine.Proofs.Malformed
import RegisterMachine.Proofs.NormalForm
import RegisterMachine.Proofs.Numeral
import RegisterMachine.Proofs.ParameterOrder
import RegisterMachine.Proofs.Partition
import RegisterMachine.Proofs.Picture
import RegisterMachine.Proofs.Pipeline
import RegisterMachine.Proofs.Pixels
import RegisterMachine.Proofs.PrintedLines
import RegisterMachine.Proofs.Reach
import RegisterMachine.Proofs.Reassembly
import RegisterMachine.Proofs.Reload
import RegisterMachine.Proofs.Rendering
import RegisterMachine.Proofs.Representation
import RegisterMachine.Proofs.Requests
import RegisterMachine.Proofs.Resolution
import RegisterMachine.Proofs.Rounds
import RegisterMachine.Proofs.Rows
import RegisterMachine.Proofs.Scanner
import RegisterMachine.Proofs.ShownText
import RegisterMachine.Proofs.StackDiscipline
import RegisterMachine.Proofs.Tokens
import RegisterMachine.Proofs.Transcript
import RegisterMachine.Proofs.UpperCase
import RegisterMachine.Proofs.WordBounds
import RegisterMachine.Screen.Basic
import RegisterMachine.Screen.Palette
import RegisterMachine.Screen.Render
import RegisterMachine.Text.DecimalDigit
import RegisterMachine.Text.Lines
import RegisterMachine.Text.Separator
import RegisterMachine.Text.Trim
import RegisterMachine.Text.Upper
import RegisterMachine.Text.UpperTable
import RegisterMachine.Toml.Document
import RegisterMachine.Toml.Quoted
import RegisterMachine.Toml.Scalar
import RegisterMachine.Toml.Scan
import RegisterMachine.Toml.Table
