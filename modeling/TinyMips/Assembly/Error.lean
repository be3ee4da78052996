import TinyMips.Instruction.Mnemonic
import TinyMips.Source.Item
import TinyMips.Source.Slot

namespace TinyMips

/-!
# Assembly errors

Assembly either yields a program or one error, which names a line of the source
and the fault found there.
-/

/-- A fault in the shape of a statement. -/
inductive Malformation where
  /-- The text does not follow the grammar. -/
  | outsideGrammar (error : SyntaxError)
  /-- No operation is spelled like this. -/
  | unknownMnemonic (mnemonic : Text)
  /-- The statement has too few or too many operands. -/
  | operandCount (mnemonic : Mnemonic) (found : Nat)
  /-- A literal does not fit 64 bits. -/
  | literalTooLarge (literal : Text)
  /-- An operand is of another kind than its slot asks for. -/
  | wrongKind (expected : SlotKind) (found : Text)
  deriving DecidableEq, Repr

/-- The wording of a malformation. -/
def Malformation.reason : Malformation → String
  | outsideGrammar error => error.message
  | unknownMnemonic mnemonic => s!"unknown mnemonic `{mnemonic.asString}`"
  | operandCount mnemonic found =>
      let shape := mnemonic.shape
      let name := mnemonic.name.asString
      s!"`{name}` takes {shape.arity} operands ({shape.template}), found {found}"
  | literalTooLarge literal => OperandError.message (.literalTooLarge literal)
  | wrongKind expected found => OperandError.message (.wrongKind expected found)

/-- What is wrong with a line. -/
inductive AssemblyFault where
  /-- A label that an earlier line defines already. -/
  | duplicateLabel (name : Text) (firstLine : Nat)
  /-- A branch to a label that no line defines. -/
  | undefinedLabel (name : Text)
  /-- A name that names no register. -/
  | unknownRegister (name : Text)
  /-- A value that does not fit its field. -/
  | immediateOutOfBounds (value : Int) (bounds : Bounds)
  /-- Anything else. -/
  | malformed (malformation : Malformation)
  deriving DecidableEq, Repr

/-- The wording of a fault, without its line. -/
def AssemblyFault.message : AssemblyFault → String
  | duplicateLabel name firstLine =>
      s!"duplicate label `{name.asString}` (first defined on line {firstLine})"
  | undefinedLabel name => s!"undefined label `{name.asString}`"
  | unknownRegister name => OperandError.message (.unknownRegister name)
  | immediateOutOfBounds value bounds => OperandError.message (.outOfBounds value bounds)
  | malformed malformation => s!"malformed instruction: {malformation.reason}"

/-- An assembly error: a line, counted from one, and its fault. -/
structure AssemblyError where
  line : Nat
  fault : AssemblyFault
  deriving DecidableEq, Repr

/-- The wording of an assembly error. -/
def AssemblyError.message (error : AssemblyError) : String :=
  s!"line {error.line}: {error.fault.message}"

/-- The assembly fault that a fault of an operand is. -/
def OperandError.fault : OperandError → AssemblyFault
  | unknownRegister name => .unknownRegister name
  | literalTooLarge literal => .malformed (.literalTooLarge literal)
  | outOfBounds value bounds => .immediateOutOfBounds value bounds
  | wrongKind expected found => .malformed (.wrongKind expected found)

/-- The assembly error of a text outside the grammar. -/
def SyntaxError.assemblyError (error : SyntaxError) : AssemblyError :=
  ⟨error.row, .malformed (.outsideGrammar error)⟩

end TinyMips
