import TinyMips.Source.Operand

namespace TinyMips

/-!
# Operand slots

What a statement can ask of an operand: that it names a register, that it is an
integer within bounds, or that it is an offset from a base register. Every way
it can fall short is an `OperandError`.
-/

/-- What a slot accepts. -/
inductive SlotKind where
  /-- A register, with or without its dollar sign. -/
  | register
  /-- An integer literal of any size. -/
  | integer
  /-- An integer literal within the bounds of a field. -/
  | immediate
  /-- An offset from a base register. -/
  | memory
  deriving Repr, DecidableEq

/-- What a slot accepts, as error messages put it. -/
def SlotKind.description : SlotKind → String
  | .register => "a register"
  | .integer => "an integer"
  | .immediate => "an immediate"
  | .memory => "offset(base)"

/-- The integers a field can hold. -/
structure Bounds where
  least : Int
  greatest : Int
  deriving Repr, DecidableEq

namespace Bounds

/-- A value lies within the bounds. -/
def contains (bounds : Bounds) (value : Int) : Bool :=
  bounds.least ≤ value && value ≤ bounds.greatest

/-- The values of a signed 16-bit field. -/
def signedHalf : Bounds := ⟨-0x8000, 0x7FFF⟩

/-- The values of an unsigned 16-bit field. -/
def unsignedHalf : Bounds := ⟨0, 0xFFFF⟩

/-- The values of a signed 64-bit integer. -/
def signed64 : Bounds := ⟨-0x8000000000000000, 0x7FFFFFFFFFFFFFFF⟩

/-- The bounds as error messages show them. -/
def description (bounds : Bounds) : String :=
  s!"{bounds.least}..={bounds.greatest}"

end Bounds

/-- A fault of one operand. -/
inductive OperandError where
  /-- The name names no register. -/
  | unknownRegister (name : Text)
  /-- The literal does not fit 64 bits. -/
  | literalTooLarge (literal : Text)
  /-- The value does not fit its field. -/
  | outOfBounds (value : Int) (bounds : Bounds)
  /-- The operand is of another kind than its slot asks for. -/
  | wrongKind (expected : SlotKind) (found : Text)
  deriving Repr, DecidableEq

/-- The wording of an operand fault. -/
def OperandError.message : OperandError → String
  | unknownRegister name => s!"unknown register `{name.asString}`"
  | literalTooLarge literal => s!"integer literal `{literal.asString}` is too large"
  | outOfBounds value bounds => s!"immediate {value} out of range {bounds.description}"
  | wrongKind expected found =>
      s!"expected {expected.description}, found `{found.asString}`"

/-- A resolved memory operand. -/
structure MemoryOperand where
  offset : Half
  base : Reg
  deriving Repr, DecidableEq

namespace Operand

/-- The register a name stands for. -/
def resolveRegister (name : Text) : Except OperandError Reg :=
  match Reg.lookup? name with
  | some reg => .ok reg
  | none => .error (.unknownRegister name)

/-- The value of a literal within bounds. -/
def resolveLiteral (bounds : Bounds) (literal : Text) : Except OperandError Int :=
  match Literal.value? literal with
  | none => .error (.literalTooLarge literal)
  | some value =>
      if bounds.contains value then .ok value else .error (.outOfBounds value bounds)

/-- The operand as a register; a bare name will do. -/
def asRegister (operand : Operand) : Except OperandError Reg :=
  match operand with
  | register name | symbol name => resolveRegister name
  | _ => .error (.wrongKind .register operand.text)

/-- The operand as an integer of up to 64 bits. -/
def asInteger (operand : Operand) : Except OperandError Int :=
  match operand with
  | immediate literal => resolveLiteral .signed64 literal
  | _ => .error (.wrongKind .integer operand.text)

/-- The operand as an integer within bounds. -/
def asImmediate (bounds : Bounds) (operand : Operand) : Except OperandError Int :=
  match operand with
  | immediate literal => resolveLiteral bounds literal
  | _ => .error (.wrongKind .immediate operand.text)

/-- The operand as a signed 16-bit field. -/
def asSignedHalf (operand : Operand) : Except OperandError Half :=
  (operand.asImmediate .signedHalf).map (BitVec.ofInt 16)

/-- The operand as an unsigned 16-bit field. -/
def asUnsignedHalf (operand : Operand) : Except OperandError Half :=
  (operand.asImmediate .unsignedHalf).map (BitVec.ofInt 16)

/-- The offset of a memory operand; one that is left out is zero. -/
def resolveOffset : Option Text → Except OperandError Half
  | some literal => (resolveLiteral .signedHalf literal).map (BitVec.ofInt 16)
  | none => .ok 0

/-- The operand as an offset from a base register; a bad offset is reported before a bad base. -/
def asMemory (operand : Operand) : Except OperandError MemoryOperand :=
  match operand with
  | memory offset? base => do
      let offset ← resolveOffset offset?
      let base ← resolveRegister base
      return ⟨offset, base⟩
  | _ => .error (.wrongKind .memory operand.text)

end Operand

end TinyMips
