import Chip8VM.Binary64
import Chip8VM.CommandLine.Options
import Chip8VM.CommandLine.Token
import Chip8VM.Halt
import Chip8VM.Instruction.Basic
import Chip8VM.Instruction.Form
import Chip8VM.Instruction.Mnemonic
import Chip8VM.Instruction.Word
import Chip8VM.Library
import Chip8VM.Log
import Chip8VM.Machine.Basic
import Chip8VM.Machine.CallStack
import Chip8VM.Machine.Execute
import Chip8VM.Machine.Keypad
import Chip8VM.Machine.Memory
import Chip8VM.Machine.Random
import Chip8VM.Machine.Screen
import Chip8VM.Machine.Setup
import Chip8VM.Machine.Statement
import Chip8VM.Main
import Chip8VM.Number
import Chip8VM.Pacing.Agenda
import Chip8VM.Pacing.Host
import Chip8VM.Pacing.Quantity
import Chip8VM.Picture
import Chip8VM.Processor
import Chip8VM.ProgressBar
import Chip8VM.Proofs.CallStack.Storage
import Chip8VM.Proofs.Machine.Halting
import Chip8VM.Proofs.Pacing.Agenda
import Chip8VM.Proofs.Pacing.Delivery
import Chip8VM.Proofs.Pacing.Exact
import Chip8VM.Proofs.Pacing.Slicing
import Chip8VM.Proofs.Processor.Command
import Chip8VM.Proofs.Processor.Failure
import Chip8VM.Proofs.Processor.Subroutine
import Chip8VM.Readings
import Chip8VM.Rom
import Chip8VM.Session
import Chip8VM.Surface
import Chip8VM.Terminal
import Chip8VM.Text.Decimal
import Chip8VM.Text.Digit
import Chip8VM.Text.Hex
import Chip8VM.Text.Numeral
import Chip8VM.Text.Quoted
import Chip8VM.Text.Visible
import Chip8VM.Window
import Chip8VM.Proofs.Pacing.Accounting
import Chip8VM.Proofs.Pacing.Independence
import Chip8VM.Proofs.Pacing.Order
import Chip8VM.Proofs.Processor.Interleaving
import Chip8VM.Proofs.Machine.Writes
import Chip8VM.Proofs.Machine.Setup
import Chip8VM.Proofs.Processor.Memory
import Chip8VM.Proofs.Instruction.Encoding
import Chip8VM.Proofs.Instruction.Recognition
import Chip8VM.Proofs.Instruction.Assembly
import Chip8VM.Proofs.Machine.Frame
import Chip8VM.Proofs.Processor.Executions
import Chip8VM.Proofs.Processor.Timers
import Chip8VM.Proofs.Processor.RandomStream
import Chip8VM.Proofs.Processor.Noninterference
import Chip8VM.Proofs.Processor.Pixels
import Chip8VM.Proofs.Processor.Log
import Chip8VM.Proofs.Number.Arithmetic
import Chip8VM.Proofs.Number.Whole
import Chip8VM.Proofs.Pacing.Measured
import Chip8VM.Proofs.Session.Headless
import Chip8VM.Proofs.Session.Showing
import Chip8VM.Proofs.Machine.Drawing
import Chip8VM.Proofs.Machine.Collision
import Chip8VM.Proofs.Machine.Arithmetic
import Chip8VM.Proofs.Machine.Transfer
import Chip8VM.Proofs.Machine.Keypad
import Chip8VM.Proofs.Machine.Fetching
import Chip8VM.Proofs.Machine.Addresses
import Chip8VM.Proofs.Machine.Destinations
import Chip8VM.Proofs.Processor.Loading
import Chip8VM.Proofs.Processor.Waiting
import Chip8VM.Proofs.Number.Nonfinite
import Chip8VM.Proofs.Pacing.Stopping
import Chip8VM.Proofs.Screen.Columns
import Chip8VM.Proofs.Screen.Enlargement
import Chip8VM.Proofs.Window.Picture
import Chip8VM.Proofs.Machine.Construction
