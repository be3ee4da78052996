import TinyMips.Program.Basic

namespace TinyMips

/-!
# The assembler

Assembly goes over the items of a source text twice. The first pass binds every
label to the index of the statement that follows it, so that branches may go
forward; the second turns the statements into instructions in order and stops at
the first one it cannot encode.
-/

namespace Assembly

/-- The labels of a source text, each bound to the number of statements before it. -/
def collectSymbols
    (table : SymbolTable)
    (index : Nat) :
    List Item → Except AssemblyError SymbolTable
  | [] => .ok table
  | .label line name :: items => do
      let table ← table.define name ⟨index, line⟩
      collectSymbols table index items
  | .statement .. :: items => collectSymbols table (index + 1) items

/-- The result of reading an operand, with a fault where reading failed. -/
def orFault (result : Except OperandError α) : Except AssemblyFault α :=
  result.mapError OperandError.fault

/-- The distance that a branch target stands for, as an instruction count. -/
def branchDistance
    (table : SymbolTable)
    (index : Nat)
    (target : Operand) :
    Except AssemblyFault Int :=
  match target with
  | .symbol name =>
      match table.get? name with
      | some symbol => .ok (symbol.index - (index + 1))
      | none => .error (.undefinedLabel name)
  | _ => orFault target.asInteger

/-- The branch field that a branch target stands for. -/
def branchField
    (table : SymbolTable)
    (index : Nat)
    (target : Operand) :
    Except AssemblyFault Half := do
  let distance ← branchDistance table index target
  if Bounds.signedHalf.contains distance then
    return BitVec.ofInt 16 distance
  else
    .error (.immediateOutOfBounds distance .signedHalf)

/-- The instruction that a mnemonic and its operands stand for, as instruction `index`. -/
def instruction
    (table : SymbolTable)
    (index : Nat)
    (mnemonic : Mnemonic)
    (operands : List Operand) :
    Except AssemblyFault Instruction :=
  match mnemonic, operands with
  | .and, [rd, rs, rt] => do
      let rd ← orFault rd.asRegister
      let rs ← orFault rs.asRegister
      let rt ← orFault rt.asRegister
      return .and rd rs rt
  | .slt, [rd, rs, rt] => do
      let rd ← orFault rd.asRegister
      let rs ← orFault rs.asRegister
      let rt ← orFault rt.asRegister
      return .slt rd rs rt
  | .addi, [rt, rs, imm] => do
      let rt ← orFault rt.asRegister
      let rs ← orFault rs.asRegister
      let imm ← orFault imm.asSignedHalf
      return .addi rt rs imm
  | .lui, [rt, imm] => do
      let rt ← orFault rt.asRegister
      let imm ← orFault imm.asUnsignedHalf
      return .lui rt imm
  | .lw, [rt, place] => do
      let rt ← orFault rt.asRegister
      let place ← orFault place.asMemory
      return .lw rt place.base place.offset
  | .sw, [rt, place] => do
      let rt ← orFault rt.asRegister
      let place ← orFault place.asMemory
      return .sw rt place.base place.offset
  | .beq, [rs, rt, target] => do
      let rs ← orFault rs.asRegister
      let rt ← orFault rt.asRegister
      let offset ← branchField table index target
      return .beq rs rt offset
  | mnemonic, operands => .error (.malformed (.operandCount mnemonic operands.length))

/-- The instruction that a statement stands for, as instruction `index`. -/
def encodeStatement
    (table : SymbolTable)
    (index : Nat)
    (statement : Statement) :
    Except AssemblyFault Instruction :=
  match Mnemonic.ofText? statement.mnemonic with
  | none => .error (.malformed (.unknownMnemonic statement.mnemonic))
  | some mnemonic => instruction table index mnemonic statement.operands

/-- The instruction of a numbered statement, with errors that carry its line. -/
def encodeAt
    (table : SymbolTable)
    (numbered : (Nat × Statement) × Nat) :
    Except AssemblyError Instruction :=
  let ((line, statement), index) := numbered
  (encodeStatement table index statement).mapError (⟨line, ·⟩)

/-- The program that items stand for. -/
def ofItems (items : List Item) : Except AssemblyError Program := do
  let table ← collectSymbols .empty 0 items
  let statements := Item.statements items
  let instructions ← statements.zipIdx.mapM (encodeAt table)
  return {
    instructions := instructions.toArray
    symbols := table
    lines := (statements.map fun (line, statement) => ⟨line, statement.text⟩).toArray }

end Assembly

/-- The program that a source text stands for, or the first error in it. -/
def assemble (source : Text) : Except AssemblyError Program := do
  let items ← (Item.ofText source).mapError SyntaxError.assemblyError
  Assembly.ofItems items

end TinyMips
