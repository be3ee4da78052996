import TinyMips.Instruction.Encoding

namespace TinyMips

/-!
# Instruction text

The source text of a resolved instruction: immediates in base ten, branch
targets as their distances. The assembler reads it back as the same instruction.
-/

namespace Instruction

/-- Operands with a comma and a space between them. -/
def joinOperands : List Text → Text
  | [] => []
  | [operand] => operand
  | operand :: rest => operand ++ [',', ' '] ++ joinOperands rest

/-- A 16-bit field as a signed number in base ten. -/
def signedText (half : Half) : Text :=
  Numeral.signedDecimal half.toInt

/-- The operands as they are printed. -/
def operandTexts : Instruction → List Text
  | .and rd rs rt | .slt rd rs rt => [rd.text, rs.text, rt.text]
  | .addi rt rs imm => [rt.text, rs.text, signedText imm]
  | .lui rt imm => [rt.text, Numeral.decimal imm.toNat]
  | .lw rt base offset | .sw rt base offset =>
      [rt.text, signedText offset ++ '(' :: base.text ++ [')']]
  | .beq rs rt offset => [rs.text, rt.text, signedText offset]

/-- The source text of an instruction. -/
def text (instruction : Instruction) : Text :=
  instruction.mnemonic.name ++ ' ' :: joinOperands instruction.operandTexts

/-- The source text of the instruction a word stands for, or `unknown`. -/
def disassemble (word : Word) : Text :=
  match decode? word with
  | some instruction => instruction.text
  | none => Text.ofString "unknown"

end Instruction

end TinyMips
