import TinyMips.Word

namespace TinyMips

/-!
# The arithmetic and logic unit

Four operations on words, each done by one of three units. A unit answers zero
when it is asked for an operation of another unit.
-/

namespace Alu

/-- The operations on words. -/
inductive Operation where
  /-- The sum, modulo two to the thirty-second. -/
  | add
  /-- The bitwise and. -/
  | and
  /-- One if the first is less than the second as signed numbers, else zero. -/
  | slt
  /-- The first shifted left by the low five bits of the second. -/
  | sll
  deriving DecidableEq, Repr

/-- The units that do the operations. -/
inductive Unit where
  /-- Sums. -/
  | adder
  /-- Bitwise operations and comparisons. -/
  | logic
  /-- Shifts. -/
  | shifter
  deriving DecidableEq, Repr

/-- The unit that does an operation. -/
def Operation.unit : Operation → Unit
  | .add => .adder
  | .and | .slt => .logic
  | .sll => .shifter

/-- The result of an operation. -/
def result (operation : Operation) (first second : Word) : Word :=
  match operation with
  | .add => first + second
  | .and => first &&& second
  | .slt => if first.slt second then 1 else 0
  | .sll => first <<< (second &&& 0x1F).toNat

/-- What a unit answers when it is asked for an operation. -/
def Unit.answer (unit : Unit) (operation : Operation) (first second : Word) : Word :=
  if operation.unit = unit then result operation first second else 0

end Alu

end TinyMips
