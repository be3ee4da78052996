import TinyMips.Instruction.Basic

namespace TinyMips

/-!
# Machine code

Every instruction is one word. Three registers are packed as operation code,
`rs`, `rt`, `rd`, five zero bits and a function code; a register pair and an
immediate as operation code, `rs`, `rt` and sixteen bits. Decoding accepts a word
only if it is the one that encoding writes.
-/

namespace Instruction

/-- The fields a machine word can be cut into. -/
structure Fields where
  opcode : BitVec 6
  rs : Reg
  rt : Reg
  rd : Reg
  shift : BitVec 5
  function : BitVec 6
  imm : Half
  deriving DecidableEq, Repr

/-- The fields of a machine word; the immediate overlaps the last three. -/
def Fields.ofWord (word : Word) : Fields where
  opcode := word.extractLsb' 26 6
  rs := ⟨word.extractLsb' 21 5⟩
  rt := ⟨word.extractLsb' 16 5⟩
  rd := ⟨word.extractLsb' 11 5⟩
  shift := word.extractLsb' 6 5
  function := word.extractLsb' 0 6
  imm := word.extractLsb' 0 16

/-- A word of three registers under a function code. -/
def packRegisters (opcode : BitVec 6) (rs rt rd : Reg) (function : BitVec 6) : Word :=
  opcode ++ rs.number ++ rt.number ++ rd.number ++ (0 : BitVec 5) ++ function

/-- A word of two registers and an immediate. -/
def packImmediate (opcode : BitVec 6) (rs rt : Reg) (imm : Half) : Word :=
  opcode ++ rs.number ++ rt.number ++ imm

/-- The machine word of an instruction. -/
def encode (instruction : Instruction) : Word :=
  let opcode := instruction.mnemonic.opcode
  let function := instruction.mnemonic.function?.getD 0
  match instruction with
  | .and rd rs rt | .slt rd rs rt => packRegisters opcode rs rt rd function
  | .addi rt rs imm => packImmediate opcode rs rt imm
  | .lui rt imm => packImmediate opcode Reg.zero rt imm
  | .lw rt base offset | .sw rt base offset => packImmediate opcode base rt offset
  | .beq rs rt offset => packImmediate opcode rs rt offset

/-- The instruction with the given fields, if the machine has one. -/
def ofFields? (fields : Fields) : Option Instruction :=
  if fields.opcode = 0x00 then
    if fields.shift ≠ 0 then none
    else if fields.function = 0x24 then some (.and fields.rd fields.rs fields.rt)
    else if fields.function = 0x2A then some (.slt fields.rd fields.rs fields.rt)
    else none
  else if fields.opcode = 0x08 then some (.addi fields.rt fields.rs fields.imm)
  else if fields.opcode = 0x0F then
    if fields.rs.isZero then some (.lui fields.rt fields.imm) else none
  else if fields.opcode = 0x23 then some (.lw fields.rt fields.rs fields.imm)
  else if fields.opcode = 0x2B then some (.sw fields.rt fields.rs fields.imm)
  else if fields.opcode = 0x04 then some (.beq fields.rs fields.rt fields.imm)
  else none

/-- The instruction a machine word stands for, if it stands for one. -/
def decode? (word : Word) : Option Instruction :=
  ofFields? (Fields.ofWord word)

end Instruction

/-- The error of a word that is no instruction. -/
def illegalInstructionMessage (word : Word) : String :=
  "illegal instruction " ++ word.address.asString

end TinyMips
