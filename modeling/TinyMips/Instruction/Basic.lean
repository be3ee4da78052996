import TinyMips.Instruction.Mnemonic
import TinyMips.Register.Basic

namespace TinyMips

/-!
# Instructions

An instruction with its registers and immediates resolved. Branch targets are
signed distances in instructions from the instruction that follows the branch.
-/

/-- A resolved instruction. -/
inductive Instruction where
  /-- `rd` becomes the bitwise and of `rs` and `rt`. -/
  | and (rd rs rt : Reg)
  /-- `rd` becomes one if `rs` is less than `rt` as signed numbers, else zero. -/
  | slt (rd rs rt : Reg)
  /-- `rt` becomes the sum of `rs` and a signed immediate. -/
  | addi (rt rs : Reg) (imm : Half)
  /-- `rt` becomes the immediate in its upper half and zeros below. -/
  | lui (rt : Reg) (imm : Half)
  /-- `rt` becomes the memory word at a signed offset from `base`. -/
  | lw (rt base : Reg) (offset : Half)
  /-- The memory word at a signed offset from `base` becomes `rt`. -/
  | sw (rt base : Reg) (offset : Half)
  /-- Go to a signed distance from the next instruction if `rs` and `rt` are equal. -/
  | beq (rs rt : Reg) (offset : Half)
  deriving DecidableEq, Repr

namespace Instruction

/-- The operation the instruction performs. -/
def mnemonic : Instruction → Mnemonic
  | .and .. => .and
  | .slt .. => .slt
  | .addi .. => .addi
  | .lui .. => .lui
  | .lw .. => .lw
  | .sw .. => .sw
  | .beq .. => .beq

/-- The statistics class the instruction counts for. -/
def category (instruction : Instruction) : InstructionClass :=
  instruction.mnemonic.category

/-- The register the instruction names as its destination, register zero included. -/
def destination? : Instruction → Option Reg
  | .and rd _ _ | .slt rd _ _ => some rd
  | .addi rt _ _ | .lui rt _ | .lw rt _ _ => some rt
  | .sw .. | .beq .. => none

end Instruction

end TinyMips
