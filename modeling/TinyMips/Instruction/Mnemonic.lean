import TinyMips.Word

namespace TinyMips

/-!
# Mnemonics

The seven operations of the machine: how they are spelled, what operands they
take, which statistics class they count for, and which codes select them.
-/

/-- What an instruction does, as far as the statistics tell instructions apart. -/
inductive InstructionClass where
  /-- Arithmetic and logic on registers and immediates. -/
  | alu
  /-- A load of a word. -/
  | load
  /-- A store of a word. -/
  | store
  /-- A conditional branch. -/
  | branch
  deriving Repr, DecidableEq

/-- The operands a mnemonic takes in source text. -/
inductive OperandShape where
  /-- Three registers. -/
  | threeRegisters
  /-- Two registers and an immediate. -/
  | twoRegistersImmediate
  /-- A register and an immediate. -/
  | registerImmediate
  /-- A register and an offset from a base register. -/
  | registerMemory
  /-- Two registers and a branch target. -/
  | twoRegistersTarget
  deriving Repr, DecidableEq

/-- The number of operands. -/
def OperandShape.arity : OperandShape → Nat
  | .threeRegisters | .twoRegistersImmediate | .twoRegistersTarget => 3
  | .registerImmediate | .registerMemory => 2

/-- The operands as error messages show them. -/
def OperandShape.template : OperandShape → String
  | .threeRegisters => "rd, rs, rt"
  | .twoRegistersImmediate => "rt, rs, imm"
  | .registerImmediate => "rt, imm"
  | .registerMemory => "rt, offset(base)"
  | .twoRegistersTarget => "rs, rt, label"

/-- The operations of the machine. -/
inductive Mnemonic where
  /-- Bitwise and. -/
  | and
  /-- Set if less than, as signed numbers. -/
  | slt
  /-- Add an immediate. -/
  | addi
  /-- Load an immediate into the upper half. -/
  | lui
  /-- Load a word. -/
  | lw
  /-- Store a word. -/
  | sw
  /-- Branch if equal. -/
  | beq
  deriving Repr, DecidableEq

namespace Mnemonic

/-- Every mnemonic, in the order of the instruction table. -/
def all : List Mnemonic :=
  [.and, .slt, .addi, .lui, .lw, .sw, .beq]

/-- The spelling in lower case. -/
def name : Mnemonic → Text
  | .and => Text.ofString "and"
  | .slt => Text.ofString "slt"
  | .addi => Text.ofString "addi"
  | .lui => Text.ofString "lui"
  | .lw => Text.ofString "lw"
  | .sw => Text.ofString "sw"
  | .beq => Text.ofString "beq"

/-- The mnemonic that a word of source text spells, in any case. -/
def ofText? (text : Text) : Option Mnemonic :=
  all.find? fun mnemonic => mnemonic.name = Text.lowercase text

/-- The operands the mnemonic takes. -/
def shape : Mnemonic → OperandShape
  | .and | .slt => .threeRegisters
  | .addi => .twoRegistersImmediate
  | .lui => .registerImmediate
  | .lw | .sw => .registerMemory
  | .beq => .twoRegistersTarget

/-- The statistics class the mnemonic counts for. -/
def category : Mnemonic → InstructionClass
  | .and | .slt | .addi | .lui => .alu
  | .lw => .load
  | .sw => .store
  | .beq => .branch

/-- The six-bit major operation code. -/
def opcode : Mnemonic → BitVec 6
  | .and | .slt => 0x00
  | .addi => 0x08
  | .lui => 0x0F
  | .lw => 0x23
  | .sw => 0x2B
  | .beq => 0x04

/-- The six-bit function code of the operations that share operation code zero. -/
def function? : Mnemonic → Option (BitVec 6)
  | .and => some 0x24
  | .slt => some 0x2A
  | .addi | .lui | .lw | .sw | .beq => none

end Mnemonic

end TinyMips
