import TinyMips.Config.Basic
import TinyMips.Machine.Effect
import TinyMips.Machine.Memory
import TinyMips.Register.File

namespace TinyMips

/-!
# Machine state

Registers, memory, program counter and counters, and the address at which a
reset starts. The printed state shows the program counter, all registers and
every word of memory that is not zero.
-/

/-- The state of the machine. -/
structure Machine where
  registers : RegisterFile
  memory : Memory
  pc : Word
  counters : Counters
  /-- Log every completed instruction. -/
  traced : Bool
  /-- The program counter after a reset. -/
  start : Word
  deriving DecidableEq, Repr

/-- The reason a step cannot be taken. -/
inductive ExecutionError where
  /-- The program counter is not the address of an instruction. -/
  | outsideProgram (pc : Word)
  /-- A load or store is refused. -/
  | access (error : AccessError)
  deriving DecidableEq, Repr

/-- The wording of an execution error. -/
def ExecutionError.message : ExecutionError → String
  | outsideProgram pc => s!"program counter {pc.address.asString} is outside the program"
  | access error => error.message

namespace Machine

/-- The machine at the start of a simulation. -/
def ofConfig (config : Config) : Machine where
  registers := .cleared
  memory := .zeroed config.memoryWords
  pc := config.startAddress
  counters := {}
  traced := config.traceInstructions
  start := config.startAddress

/-- The machine with registers, memory and counters zero and the program counter at its start. -/
def reset (machine : Machine) : Machine :=
  { machine with
    registers := .cleared
    memory := machine.memory.clear
    pc := machine.start
    counters := {} }

/-- The machine at a new start, where its next reset will begin too. -/
def startAt (machine : Machine) (address : Word) : Machine :=
  { machine with pc := address, start := address }

/-- One word of memory in the printed state. -/
def memoryLine (index : Nat) (word : Word) : Text :=
  Text.ofString "mem[" ++ Numeral.prefixedHex 4 (4 * index) ++ Text.ofString "] = "
    ++ word.address ++ ['\n']

/-- The printed state of the machine. -/
def dump (machine : Machine) : Text :=
  Text.ofString "pc = " ++ machine.pc.address ++ ['\n'] ++ machine.registers.table
    ++ machine.memory.nonzero.flatMap fun (index, word) => memoryLine index word

end Machine

end TinyMips
