import TinyMips.Assembly.Basic
import TinyMips.Proofs.Source.Slot
import TinyMips.Proofs.Source.Statement
import TinyMips.Proofs.Text.Line
import TinyMips.Proofs.Traversal

namespace TinyMips

/-!
# Printed instructions are read back

The text of an instruction is that of a statement, the line with it holds this
statement alone, and the statement stands for the instruction wherever it is and
whatever the labels are.
-/

namespace Mnemonic

theorem name_ne_nil
    (mnemonic : Mnemonic) :
    mnemonic.name ≠ [] := by
  cases mnemonic <;> decide +kernel

/-- The names of mnemonics are words of letters. -/
theorem isAlpha_of_mem_name
    (mnemonic : Mnemonic) :
    ∀ c ∈ mnemonic.name, c.isAlpha = true := by
  apply List.all_eq_true.mp
  cases mnemonic <;> decide +kernel

theorem name_isOneLine
    (mnemonic : Mnemonic) :
    mnemonic.name.IsOneLine := by
  cases mnemonic <;> decide +kernel

/-- A mnemonic is found again under its name. -/
theorem ofText?_name
    (mnemonic : Mnemonic) :
    ofText? mnemonic.name = some mnemonic := by
  cases mnemonic <;> decide +kernel

end Mnemonic

/-- The written form of a register stands on one line. -/
theorem Reg.text_isOneLine :
    ∀ reg : Reg, reg.text.IsOneLine := by
  decide +kernel

theorem Numeral.decimal_isOneLine
    (n : Nat) :
    (decimal n).IsOneLine :=
  forall_mem_decimal (by decide)

theorem Numeral.signedDecimal_isOneLine
    (value : Int) :
    (signedDecimal value).IsOneLine := by
  cases value with
  | ofNat n =>
      exact decimal_isOneLine n
  | negSucc n =>
      simp [signedDecimal, decimal_isOneLine]

namespace Assembly

@[simp]
theorem orFault_ok
    {α : Type}
    (value : α) :
    orFault (.ok value) = .ok value :=
  rfl

end Assembly

namespace Instruction

/-- The operands that an instruction is printed with; there is a first one. -/
def printedOperands : Instruction → Operand × List Operand
  | .and rd rs rt | .slt rd rs rt =>
      (.register rd.text, [.register rs.text, .register rt.text])
  | .addi rt rs imm => (.register rt.text, [.register rs.text, .immediate (signedText imm)])
  | .lui rt imm => (.register rt.text, [.immediate (Numeral.decimal imm.toNat)])
  | .lw rt base offset | .sw rt base offset =>
      (.register rt.text, [.memory (some (signedText offset)) base.text])
  | .beq rs rt offset =>
      (.register rs.text, [.register rt.text, .immediate (signedText offset)])

/-- The statement that an instruction is printed as. -/
def statement (instruction : Instruction) : Statement :=
  .printed instruction.mnemonic.name
    (instruction.printedOperands.1 :: instruction.printedOperands.2)

/-- The statement of an instruction has the text of the instruction. -/
theorem statement_text
    (instruction : Instruction) :
    instruction.statement.text = instruction.text := by
  cases instruction <;> rfl

/-- The printed operands of an instruction have the form of operands. -/
theorem isOperand_of_mem_printedOperands
    (instruction : Instruction) :
    ∀ operand ∈ instruction.printedOperands.1 :: instruction.printedOperands.2,
      Grammar.IsOperand operand.text operand := by
  have register (reg : Reg) : Grammar.IsOperand reg.text (.register reg.text) :=
    .register (Grammar.register_text reg)
  have signed (half : Half) : Grammar.IsOperand (signedText half) (.immediate (signedText half)) :=
    .immediate (Grammar.immediate_signedDecimal half.toInt)
  have unsigned (half : Half) :
      Grammar.IsOperand (Numeral.decimal half.toNat) (.immediate (Numeral.decimal half.toNat)) :=
    .immediate (.unsigned (Grammar.natural_decimal half.toNat))
  have memory (offset : Half) (base : Reg) := Grammar.isOperand_memory offset.toInt base
  cases instruction with
  | and rd rs rt
  | slt rd rs rt =>
      simp [printedOperands, Operand.text, register]
  | addi rt rs imm => simp [printedOperands, Operand.text, register, signed]
  | lui rt imm => simp [printedOperands, Operand.text, register, unsigned]
  | lw rt base offset
  | sw rt base offset =>
      simp only [printedOperands, List.forall_mem_cons]
      exact ⟨register rt, memory offset base, by simp⟩
  | beq rs rt offset => simp [printedOperands, Operand.text, register, signed]

/-- Printed instructions have no line breaks in them. -/
theorem text_isOneLine
    (instruction : Instruction) :
    instruction.text.IsOneLine := by
  have register (reg : Reg) : reg.text.IsOneLine := Reg.text_isOneLine reg
  have signed (half : Half) : (signedText half).IsOneLine :=
    Numeral.signedDecimal_isOneLine half.toInt
  have unsigned (half : Half) : (Numeral.decimal half.toNat).IsOneLine :=
    Numeral.signedDecimal_isOneLine half.toNat
  have name := instruction.mnemonic.name_isOneLine
  cases instruction <;>
    simp [text, operandTexts, joinOperands, name, register, signed, unsigned]

/-- What a line with a printed instruction says. -/
def content (instruction : Instruction) : Content :=
  ⟨[], some instruction.statement⟩

/-- A line with a printed instruction holds its statement and nothing else. -/
theorem ofLine?_text
    (instruction : Instruction) :
    Content.ofLine? instruction.text = some instruction.content := by
  rw [← statement_text]
  exact Content.ofLine?_printed instruction.mnemonic.name_ne_nil
    instruction.mnemonic.isAlpha_of_mem_name instruction.isOperand_of_mem_printedOperands

/-- A printed branch distance is resolved to the field it was printed from. -/
theorem branchField_signedText
    (table : SymbolTable)
    (index : Nat)
    (offset : Half) :
    Assembly.branchField table index (.immediate (signedText offset)) = .ok offset := by
  have read : Operand.resolveLiteral .signed64 (signedText offset) = .ok offset.toInt :=
    Operand.resolveLiteral_signedText (by decide) (by decide) offset
  have measured :
      Assembly.branchDistance table index (.immediate (signedText offset)) =
        .ok offset.toInt := by
    simp [Assembly.branchDistance, Operand.asInteger, read]
  have inside : Bounds.signedHalf.contains offset.toInt = true :=
    Operand.contains_of_half (by decide) (by decide) offset
  rw [Assembly.branchField, measured, ok_bind, if_pos inside, BitVec.ofInt_toInt]
  rfl

/-- The statement of a printed instruction stands for the instruction. -/
theorem encodeStatement_statement
    (table : SymbolTable)
    (index : Nat)
    (instruction : Instruction) :
    Assembly.encodeStatement table index instruction.statement = .ok instruction := by
  have known := Mnemonic.ofText?_name instruction.mnemonic
  simp only [Assembly.encodeStatement, statement, Statement.printed, known]
  cases instruction with
  | and rd rs rt
  | slt rd rs rt =>
      simp [mnemonic, printedOperands, Assembly.instruction, Operand.asRegister_text]
  | addi rt rs imm =>
      simp [mnemonic, printedOperands, Assembly.instruction, Operand.asRegister_text,
        Operand.asSignedHalf_signedText]
  | lui rt imm =>
      simp [mnemonic, printedOperands, Assembly.instruction, Operand.asRegister_text,
        Operand.asUnsignedHalf_decimal]
  | lw rt base offset
  | sw rt base offset =>
      simp [mnemonic, printedOperands, Assembly.instruction, Operand.asRegister_text,
        Operand.asMemory_signedText]
  | beq rs rt offset =>
      simp [mnemonic, printedOperands, Assembly.instruction, Operand.asRegister_text,
        branchField_signedText]

end Instruction

end TinyMips
