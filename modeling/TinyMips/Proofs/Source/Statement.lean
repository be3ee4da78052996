import TinyMips.Instruction.Printer
import TinyMips.Proofs.Grammar.Line
import TinyMips.Proofs.Register.Name

namespace TinyMips

/-!
# Printed statements are in the language

Registers, integers and memory operands are printed as operands of the language, so a
mnemonic, a space and such operands with commas between them are a line with that
statement alone.
-/

namespace Grammar

theorem register_text
    (reg : Reg) :
    Register reg.text :=
  .mk (Reg.name_ne_nil reg) (Reg.isAlphanum_of_mem_name reg)

theorem natural_decimal
    (n : Nat) :
    Natural (Numeral.decimal n) :=
  .decimal (Numeral.decimal_ne_nil n) (Numeral.forall_mem_decimal (by decide))

/-- An integer in decimal has the form of an immediate, with or without a minus sign. -/
theorem immediate_signedDecimal
    (value : Int) :
    Immediate (Numeral.signedDecimal value) := by
  cases value with
  | ofNat n => exact .unsigned (natural_decimal n)
  | negSucc n => exact .signed (.inl rfl) (natural_decimal (n + 1))

/-- A written memory operand has the form of one. -/
theorem isOperand_memory
    (value : Int)
    (base : Reg) :
    IsOperand (Operand.memory (some (Numeral.signedDecimal value)) base.text).text
      (.memory (some (Numeral.signedDecimal value)) base.text) := by
  have isOffset : ∀ offset ∈ some (Numeral.signedDecimal value), Immediate offset := by
    rintro offset ⟨⟩
    exact immediate_signedDecimal value
  simpa [Operand.text] using IsOperand.memory isOffset (.inl (register_text base))

/-- A comma and a space separate operands. -/
theorem areOperands_joinOperands
    {operand : Operand}
    {others : List Operand}
    (areOperands : ∀ other ∈ operand :: others, IsOperand other.text other) :
    AreOperands (Instruction.joinOperands ((operand :: others).map Operand.text))
      (operand :: others) := by
  induction others generalizing operand with
  | nil =>
      exact .one (areOperands operand (by simp))
  | cons other others inductionHypothesis =>
      have separated : Separator ([] ++ [',', ' ']) := by
        refine .comma .nil ?_
        simp [Blanks, Only, Text.isBlank]
      have later := inductionHypothesis (List.forall_mem_cons.mp areOperands).2
      exact .more (areOperands operand (by simp)) separated later

end Grammar

/-- The statement that prints as a mnemonic and operands. -/
def Statement.printed (mnemonic : Text) (operands : List Operand) : Statement where
  mnemonic := mnemonic
  operands := operands
  text := mnemonic ++ ' ' :: Instruction.joinOperands (operands.map Operand.text)

open Grammar in
/-- A mnemonic of letters and printed operands has the form of an instruction. -/
theorem Statement.isInstruction_printed
    {mnemonic : Text}
    (nonempty : mnemonic ≠ [])
    (letters : Only Char.isAlpha mnemonic)
    {operand : Operand}
    {others : List Operand}
    (areOperands : ∀ other ∈ operand :: others, IsOperand other.text other) :
    IsInstruction (printed mnemonic (operand :: others)).text
      (printed mnemonic (operand :: others)) := by
  have blank : Blanks [' '] := by
    simp [Blanks, Only, Text.isBlank]
  have applied :=
    IsInstruction.applied nonempty letters (by simp) blank (areOperands_joinOperands areOperands)
  simpa [printed] using applied

namespace Content

open Grammar

/-- What a line without labels and without a statement says. -/
def silent : Content :=
  ⟨[], none⟩

/-- The tail of a line is a line with nothing on it. -/
theorem silent_of_tail
    {text : Text}
    (isTail : Tail text) :
    IsLine text silent :=
  isLine_of_remainder .nil (.mk .nothing isTail)

theorem ofLine?_nil :
    ofLine? [] = some silent :=
  ofLine?_eq_some_iff.mpr (silent_of_tail (.mk .nil .none))

/-- A line with a printed statement holds that statement and nothing else. -/
theorem ofLine?_printed
    {mnemonic : Text}
    (nonempty : mnemonic ≠ [])
    (letters : Only Char.isAlpha mnemonic)
    {operand : Operand}
    {others : List Operand}
    (areOperands : ∀ other ∈ operand :: others, IsOperand other.text other) :
    ofLine? (Statement.printed mnemonic (operand :: others)).text =
      some ⟨[], some (Statement.printed mnemonic (operand :: others))⟩ := by
  have isInstruction := Statement.isInstruction_printed nonempty letters areOperands
  have remainder := Remainder.mk (.instruction isInstruction) (.mk .nil .none)
  rw [ofLine?_eq_some_iff]
  simpa using isLine_of_remainder .nil remainder

end Content

end TinyMips
