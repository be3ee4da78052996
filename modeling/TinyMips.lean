import TinyMips.Main
import TinyMips.Proofs.Assembly.Branch
import TinyMips.Proofs.Assembly.Encoding
import TinyMips.Proofs.Assembly.Errors
import TinyMips.Proofs.Assembly.Literal
import TinyMips.Proofs.Assembly.Reassembly
import TinyMips.Proofs.Assembly.Rejection
import TinyMips.Proofs.Assembly.SourceMap
import TinyMips.Proofs.Console.Check
import TinyMips.Proofs.Grammar.Source
import TinyMips.Proofs.Peg.Assertion
import TinyMips.Proofs.Program.Disassembly
import TinyMips.Proofs.Program.Reading
import TinyMips.Proofs.Program.Reload
import TinyMips.Proofs.Program.Symbols
import TinyMips.Proofs.Program.Words
import TinyMips.Proofs.Register.Lookup
import TinyMips.Proofs.Simulation.Architecture
import TinyMips.Proofs.Simulation.Budget
import TinyMips.Proofs.Simulation.Idle
import TinyMips.Proofs.Simulation.Replay
import TinyMips.Proofs.Simulation.Pass
import TinyMips.Proofs.Simulation.Printed
import TinyMips.Proofs.Simulation.Reached
import TinyMips.Proofs.Simulation.Counters
import TinyMips.Proofs.Machine.Commit
import TinyMips.Proofs.Machine.Dump
import TinyMips.Proofs.Machine.Memory
import TinyMips.Proofs.Machine.Sound
import TinyMips.Proofs.Simulation.Restart
import TinyMips.Proofs.Simulation.Sound
import TinyMips.Proofs.Surface.Source
import TinyMips.Proofs.Text.Rows
import TinyMips.Proofs.Assertion.Mark
import TinyMips.Proofs.Assertion.Checking
import TinyMips.Proofs.Assertion.Collection
