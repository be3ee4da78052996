import TinyMips.Machine.Alu
import TinyMips.Machine.Basic

namespace TinyMips

/-!
# Execution

An instruction is executed in two parts. Evaluation finds its effect, or the
reason that it has none, and changes nothing; committing lets the effect take
place, counts it and moves the program counter. A part that fails leaves the
machine as it was.
-/

namespace Machine

/-- The instruction at the program counter. -/
def fetch
    (machine : Machine)
    (program : Array Instruction) :
    Except ExecutionError Instruction :=
  if machine.pc.isAligned then
    match program[machine.pc.index]? with
    | some instruction => .ok instruction
    | none => .error (.outsideProgram machine.pc)
  else
    .error (.outsideProgram machine.pc)

/-- The byte address at a signed offset from a base register. -/
def effectiveAddress (machine : Machine) (base : Reg) (offset : Half) : Word :=
  Alu.result .add (machine.registers.read base) offset.signExtended

/-- The memory word at a signed offset from a base register. -/
def load (machine : Machine) (base : Reg) (offset : Half) : Except ExecutionError Word :=
  (machine.memory.read (machine.effectiveAddress base offset)).mapError .access

/-- The address at a signed offset from a base register and the word that is there. -/
def storeTarget
    (machine : Machine)
    (base : Reg)
    (offset : Half) :
    Except ExecutionError (Word × Word) :=
  let address := machine.effectiveAddress base offset
  match machine.memory.check address .store with
  | .ok index => .ok (address, machine.memory.word index)
  | .error error => .error (.access error)

/-- The effect of a result for a register. -/
def resultEffect (machine : Machine) (destination : Reg) (value : Word) : Effect :=
  if destination.isZero then
    .discarded value
  else
    .registerWrite destination (machine.registers.read destination) value

/-- The effect that an instruction has on the machine. -/
def evaluate (machine : Machine) (instruction : Instruction) : Except ExecutionError Effect :=
  let read := machine.registers.read
  match instruction with
  | .and rd rs rt => .ok (machine.resultEffect rd (Alu.result .and (read rs) (read rt)))
  | .slt rd rs rt => .ok (machine.resultEffect rd (Alu.result .slt (read rs) (read rt)))
  | .addi rt rs imm =>
      .ok (machine.resultEffect rt (Alu.result .add (read rs) imm.signExtended))
  | .lui rt imm => .ok (machine.resultEffect rt (Alu.result .sll (imm.setWidth 32) 16))
  | .lw rt base offset => (machine.load base offset).map (machine.resultEffect rt)
  | .sw rt base offset =>
      (machine.storeTarget base offset).map fun (address, before) =>
        .memoryWrite address before (read rt)
  | .beq rs rt offset =>
      .ok (.branch (read rs = read rt)
        (Alu.result .add (machine.pc + 4) (4 * offset.signExtended)))

/-- What keeps an effect from taking place, if anything does. -/
def refusal? (machine : Machine) (effect : Effect) : Option ExecutionError :=
  match effect with
  | .memoryWrite address _ _ =>
      (Memory.fault? machine.memory.size address).map fun fault =>
        .access ⟨address, .store, fault⟩
  | _ => none

/-- The registers after an effect. -/
def registersAfter (registers : RegisterFile) : Effect → RegisterFile
  | .registerWrite reg _ after => registers.write reg after
  | _ => registers

/-- The memory after an effect that can take place. -/
def memoryAfter (memory : Memory) : Effect → Memory
  | .memoryWrite address _ after => memory.store address after
  | _ => memory

/-- The machine after an effect that can take place. -/
def apply (machine : Machine) (instruction : Instruction) (effect : Effect) : Machine :=
  { machine with
    registers := registersAfter machine.registers effect
    memory := memoryAfter machine.memory effect
    pc := effect.next machine.pc
    counters := (effect.count machine.counters).retire instruction.category }

/-- Let an effect of an instruction take place. -/
def commit
    (machine : Machine)
    (instruction : Instruction)
    (effect : Effect) :
    Except ExecutionError Unit × Machine :=
  match machine.refusal? effect with
  | some error => (.error error, machine)
  | none => (.ok (), machine.apply instruction effect)

/-- Evaluate an instruction and commit its effect. -/
def execute
    (machine : Machine)
    (instruction : Instruction) :
    Except ExecutionError Effect × Machine :=
  match machine.evaluate instruction with
  | .error error => (.error error, machine)
  | .ok effect =>
      let (result, machine) := machine.commit instruction effect
      (result.map fun _ => effect, machine)

end Machine

end TinyMips
