import TinyMips.Proofs.Assembly.Alike
import TinyMips.Proofs.Grammar.Statement
import TinyMips.Proofs.Grammar.Value
import TinyMips.Proofs.Instruction.Printer

namespace TinyMips

/-!
# Spellings of a statement

What an operand may be spelled like depends on its slot: a register slot asks which
register a name stands for, an integer slot asks for a number, and a branch target compares
the name of a label as it is. A statement whose mnemonic, separators and operands are
spelled in another way becomes the same instruction.
-/

/-- What the mnemonic asks of each operand; a branch target is a label or an integer. -/
def OperandShape.slots : OperandShape → List SlotKind
  | .threeRegisters => [.register, .register, .register]
  | .twoRegistersImmediate => [.register, .register, .immediate]
  | .registerImmediate => [.register, .immediate]
  | .registerMemory => [.register, .memory]
  | .twoRegistersTarget => [.register, .register, .integer]

namespace Operand

open Grammar

/-- An operand that is a spelling of a register. -/
inductive Names (reg : Reg) : Operand → Prop where
  | register
      {text : Text}
      (marked : reg.IsMarked text) :
      Names reg (.register text)
  | symbol
      {text : Text}
      (named : reg.IsNamed text) :
      Names reg (.symbol text)

/-- An operand of a slot, and another spelling of the same register or integer. -/
inductive Respelled : SlotKind → Operand → Operand → Prop where
  | kept
      (kind : SlotKind)
      (operand : Operand) :
      Respelled kind operand operand
  | register
      {reg : Reg}
      {old new : Operand}
      (oldNames : Names reg old)
      (newNames : Names reg new) :
      Respelled .register old new
  | integer
      {kind : SlotKind}
      {value : Int}
      {old new : Text}
      (asks : kind = .immediate ∨ kind = .integer)
      (oldDenotes : Literal.Denotes old value)
      (newDenotes : Literal.Denotes new value) :
      Respelled kind (.immediate old) (.immediate new)
  | offset
      {value : Int}
      {old new base : Text}
      (oldDenotes : Literal.Denotes old value)
      (newDenotes : Literal.Denotes new value) :
      Respelled .memory (.memory (some old) base) (.memory (some new) base)
  | base
      {reg : Reg}
      {offset? : Option Text}
      {old new : Text}
      (oldSpelled : reg.IsSpelled old)
      (newSpelled : reg.IsSpelled new) :
      Respelled .memory (.memory offset? old) (.memory offset? new)

/-- Operands of the slots of a statement, and other spellings of them. -/
inductive AllRespelled : List SlotKind → List Operand → List Operand → Prop where
  | nil :
      AllRespelled [] [] []
  | cons
      {kind : SlotKind}
      {kinds : List SlotKind}
      {old new : Operand}
      {olds news : List Operand}
      (first : Respelled kind old new)
      (later : AllRespelled kinds olds news) :
      AllRespelled (kind :: kinds) (old :: olds) (new :: news)

/-! ## Spellings are in the language -/

/-- A memory operand is one exactly if its offset and its base are what they should be. -/
theorem isOperand_memory_iff
    {offset? : Option Text}
    {base : Text} :
    IsOperand (memory offset? base).text (memory offset? base) ↔
      (∀ offset ∈ offset?, Immediate offset) ∧ (Register base ∨ Identifier base) := by
  constructor
  · intro isOperand
    generalize (memory offset? base).text = text at isOperand
    cases isOperand with
    | memory isOffset isBase => exact ⟨isOffset, isBase⟩
  · rintro ⟨isOffset, isBase⟩
    simpa [text] using IsOperand.memory isOffset isBase

/-- What names a register has the form of an operand. -/
theorem isOperand_of_names
    {reg : Reg}
    {operand : Operand}
    (names : Names reg operand) :
    IsOperand operand.text operand := by
  cases names with
  | register marked => exact .register (Reg.register_of_isMarked marked)
  | symbol named => exact .symbol (Reg.identifier_of_isNamed named)

/-- An operand that is respelled has the form of one still. -/
theorem Respelled.isOperand
    {kind : SlotKind}
    {old new : Operand}
    (respelled : Respelled kind old new)
    (isOperand : IsOperand old.text old) :
    IsOperand new.text new := by
  cases respelled with
  | kept => exact isOperand
  | register _ newNames => exact isOperand_of_names newNames
  | integer _ _ newDenotes => exact .immediate (Literal.immediate_of_denotes newDenotes)
  | offset _ newDenotes =>
      obtain ⟨_, isBase⟩ := isOperand_memory_iff.mp isOperand
      refine isOperand_memory_iff.mpr ⟨?_, isBase⟩
      rintro _ ⟨⟩
      exact Literal.immediate_of_denotes newDenotes
  | base _ newSpelled =>
      obtain ⟨isOffset, _⟩ := isOperand_memory_iff.mp isOperand
      exact isOperand_memory_iff.mpr
        ⟨isOffset, newSpelled.imp Reg.register_of_isMarked Reg.identifier_of_isNamed⟩

theorem AllRespelled.areOperands
    {kinds : List SlotKind}
    {olds news : List Operand}
    (respelled : AllRespelled kinds olds news)
    (areOperands : ∀ operand ∈ olds, IsOperand operand.text operand) :
    ∀ operand ∈ news, IsOperand operand.text operand := by
  induction respelled with
  | nil =>
      exact areOperands
  | cons first _ inductionHypothesis =>
      obtain ⟨isFirst, areLater⟩ := List.forall_mem_cons.mp areOperands
      exact List.forall_mem_cons.mpr ⟨first.isOperand isFirst, inductionHypothesis areLater⟩

/-! ## Spellings are resolved alike -/

/-- Every spelling of a register resolves to that register. -/
theorem resolveRegister_of_isSpelled
    {reg : Reg}
    {text : Text}
    (spelled : reg.IsSpelled text) :
    resolveRegister text = .ok reg := by
  simp [resolveRegister, Reg.lookup?_of_isSpelled spelled]

/-- What names a register fills the slot of a register with it. -/
theorem asRegister_of_names
    {reg : Reg}
    {operand : Operand}
    (names : Names reg operand) :
    operand.asRegister = .ok reg := by
  cases names with
  | register marked => exact resolveRegister_of_isSpelled (.inl marked)
  | symbol named => exact resolveRegister_of_isSpelled (.inr named)

/-- A literal that is written otherwise resolves to the same integer. -/
theorem resolveLiteral_of_denotes
    {old new : Text}
    {value : Int}
    (oldDenotes : Literal.Denotes old value)
    (newDenotes : Literal.Denotes new value)
    {bounds : Bounds}
    {result : Int}
    (resolved : resolveLiteral bounds old = .ok result) :
    resolveLiteral bounds new = .ok result := by
  unfold resolveLiteral at resolved ⊢
  rw [Literal.value?_of_denotes oldDenotes] at resolved
  rw [Literal.value?_of_denotes newDenotes]
  by_cases fits : value.natAbs ≤ Literal.maximum
  · rw [if_pos fits] at resolved ⊢
    dsimp only at resolved ⊢
    split at resolved
    · rename_i inside
      rw [if_pos inside]
      exact resolved
    · simp at resolved
  · rw [if_neg fits] at resolved
    simp at resolved

/-- An operand that is respelled fills the slot of a register as before. -/
theorem Respelled.asRegister
    {old new : Operand}
    (respelled : Respelled .register old new)
    {reg : Reg}
    (resolved : old.asRegister = .ok reg) :
    new.asRegister = .ok reg := by
  cases respelled with
  | kept => exact resolved
  | register oldNames newNames =>
      rwa [asRegister_of_names newNames, ← asRegister_of_names oldNames]
  | integer asks => simp at asks

theorem Respelled.asImmediate
    {old new : Operand}
    (respelled : Respelled .immediate old new)
    {bounds : Bounds}
    {value : Int}
    (resolved : old.asImmediate bounds = .ok value) :
    new.asImmediate bounds = .ok value := by
  cases respelled with
  | kept => exact resolved
  | integer _ oldDenotes newDenotes =>
      exact resolveLiteral_of_denotes oldDenotes newDenotes resolved

theorem Respelled.asMemory
    {old new : Operand}
    (respelled : Respelled .memory old new)
    {place : MemoryOperand}
    (resolved : old.asMemory = .ok place) :
    new.asMemory = .ok place := by
  cases respelled with
  | kept => exact resolved
  | integer asks => simp at asks
  | @offset value old new base oldDenotes newDenotes =>
      obtain ⟨offset, offsetResolved, rest⟩ := bind_eq_ok_iff.mp resolved
      obtain ⟨number, literalResolved, rfl⟩ := map_eq_ok_iff.mp offsetResolved
      have newResolved := resolveLiteral_of_denotes oldDenotes newDenotes literalResolved
      exact bind_eq_ok_iff.mpr ⟨_, map_eq_ok_iff.mpr ⟨number, newResolved, rfl⟩, rest⟩
  | base oldSpelled newSpelled =>
      rw [Operand.asMemory, resolveRegister_of_isSpelled oldSpelled] at resolved
      rwa [Operand.asMemory, resolveRegister_of_isSpelled newSpelled]

end Operand

namespace Assembly

open Operand

/-- An operand that is respelled gives the same branch field. -/
theorem branchField_of_respelled
    {old new : Operand}
    (respelled : Respelled .integer old new)
    {table : SymbolTable}
    {index : Nat}
    {field : Half}
    (resolved : branchField table index old = .ok field) :
    branchField table index new = .ok field := by
  cases respelled with
  | kept => exact resolved
  | integer _ oldDenotes newDenotes =>
      obtain ⟨distance, measured, rest⟩ := bind_eq_ok_iff.mp resolved
      have newResolved :=
        resolveLiteral_of_denotes oldDenotes newDenotes (mapError_eq_ok_iff.mp measured)
      exact bind_eq_ok_iff.mpr ⟨distance, mapError_eq_ok_iff.mpr newResolved, rest⟩

/-- Two operands that are respelled are respelled one by one. -/
theorem exists_of_allRespelled_two
    {first second : SlotKind}
    {olds news : List Operand}
    (respelled : AllRespelled [first, second] olds news) :
    ∃ a b x y,
      olds = [a, b] ∧ news = [x, y] ∧ Respelled first a x ∧ Respelled second b y := by
  cases respelled with
  | cons isFirst later =>
      cases later with
      | cons isSecond later =>
          cases later
          exact ⟨_, _, _, _, rfl, rfl, isFirst, isSecond⟩

theorem exists_of_allRespelled_three
    {first second third : SlotKind}
    {olds news : List Operand}
    (respelled : AllRespelled [first, second, third] olds news) :
    ∃ a b c x y z,
      olds = [a, b, c] ∧ news = [x, y, z] ∧
        Respelled first a x ∧ Respelled second b y ∧ Respelled third c z := by
  cases respelled with
  | cons isFirst later =>
      obtain ⟨b, c, y, z, rfl, rfl, isSecond, isThird⟩ := exists_of_allRespelled_two later
      exact ⟨_, b, c, _, y, z, rfl, rfl, isFirst, isSecond, isThird⟩

/-- Other spellings of the operands of a mnemonic become the same instruction. -/
theorem instruction_of_respelled
    {mnemonic : Mnemonic}
    {olds news : List Operand}
    (respelled : AllRespelled mnemonic.shape.slots olds news)
    {table : SymbolTable}
    {index : Nat}
    {result : Instruction}
    (encoded : instruction table index mnemonic olds = .ok result) :
    instruction table index mnemonic news = .ok result := by
  cases mnemonic with
  | and
  | slt =>
      obtain ⟨a, b, c, x, y, z, rfl, rfl, first, second, third⟩ :=
        exists_of_allRespelled_three respelled
      simp only [instruction, orFault, bind_eq_ok_iff, mapError_eq_ok_iff] at encoded ⊢
      obtain ⟨rd, rdRead, rs, rsRead, rt, rtRead, made⟩ := encoded
      exact ⟨rd, first.asRegister rdRead, rs, second.asRegister rsRead, rt,
        third.asRegister rtRead, made⟩
  | addi =>
      obtain ⟨a, b, c, x, y, z, rfl, rfl, first, second, third⟩ :=
        exists_of_allRespelled_three respelled
      simp only [instruction, orFault, asSignedHalf, bind_eq_ok_iff, mapError_eq_ok_iff,
        map_eq_ok_iff] at encoded ⊢
      obtain ⟨rt, rtRead, rs, rsRead, imm, ⟨value, valueRead, half⟩, made⟩ := encoded
      exact ⟨rt, first.asRegister rtRead, rs, second.asRegister rsRead, imm,
        ⟨value, third.asImmediate valueRead, half⟩, made⟩
  | lui =>
      obtain ⟨a, b, x, y, rfl, rfl, first, second⟩ := exists_of_allRespelled_two respelled
      simp only [instruction, orFault, asUnsignedHalf, bind_eq_ok_iff, mapError_eq_ok_iff,
        map_eq_ok_iff] at encoded ⊢
      obtain ⟨rt, rtRead, imm, ⟨value, valueRead, half⟩, made⟩ := encoded
      exact ⟨rt, first.asRegister rtRead, imm, ⟨value, second.asImmediate valueRead, half⟩, made⟩
  | lw
  | sw =>
      obtain ⟨a, b, x, y, rfl, rfl, first, second⟩ := exists_of_allRespelled_two respelled
      simp only [instruction, orFault, bind_eq_ok_iff, mapError_eq_ok_iff] at encoded ⊢
      obtain ⟨rt, rtRead, place, placeRead, made⟩ := encoded
      exact ⟨rt, first.asRegister rtRead, place, second.asMemory placeRead, made⟩
  | beq =>
      obtain ⟨a, b, c, x, y, z, rfl, rfl, first, second, third⟩ :=
        exists_of_allRespelled_three respelled
      simp only [instruction, orFault, bind_eq_ok_iff, mapError_eq_ok_iff] at encoded ⊢
      obtain ⟨rs, rsRead, rt, rtRead, field, fieldRead, made⟩ := encoded
      exact ⟨rs, first.asRegister rsRead, rt, second.asRegister rtRead, field,
        branchField_of_respelled third fieldRead, made⟩

end Assembly

namespace Grammar

open Statement

/-- Blanks before a first operand, and separators before further ones. -/
inductive AreApart : List Text → Prop where
  | mk
      {blanks : Text}
      {separators : List Text}
      (nonempty : blanks ≠ [])
      (areBlanks : Blanks blanks)
      (areSeparators : ∀ separator ∈ separators, Separator separator) :
      AreApart (blanks :: separators)

/-- A mnemonic and arguments that stand apart have the form of an instruction. -/
theorem isInstruction_of_arguments
    {mnemonic : Text}
    (nonempty : mnemonic ≠ [])
    (letters : Only Char.isAlpha mnemonic)
    {arguments : List Separated}
    (areApart : AreApart (arguments.map Prod.fst))
    (areOperands : ∀ operand ∈ arguments.map Prod.snd, IsOperand operand.text operand) :
    IsInstruction (mnemonic ++ separatedTexts arguments)
      ⟨mnemonic, arguments.map Prod.snd, mnemonic ++ separatedTexts arguments⟩ := by
  cases arguments with
  | nil =>
      cases areApart
  | cons first others =>
      obtain ⟨blanks, operand⟩ := first
      obtain @⟨_, _, apart, areBlanks, areSeparators⟩ := areApart
      obtain ⟨isFirst, areLater⟩ := List.forall_mem_cons.mp areOperands
      have areSeparated : AreSeparated others := fun one member =>
        ⟨areSeparators one.1 (List.mem_map_of_mem member),
          areLater one.2 (List.mem_map_of_mem member)⟩
      have operandsText :=
        operands_iff.mpr ⟨operand, others, isFirst, areSeparated, rfl, rfl⟩
      simpa [separatedTexts, separatedText] using
        IsInstruction.applied nonempty letters apart areBlanks operandsText

end Grammar

namespace Statement

open Grammar

/--
A statement, and the same one with its mnemonic in other letter case, with other blanks and
commas between the operands, and with other spellings of operands.
-/
inductive IsRespelled : Text → Text → Prop where
  | mk
      {mnemonic : Mnemonic}
      {oldName newName : Text}
      {olds news : List Separated}
      (spelled : Mnemonic.ofText? oldName = some mnemonic)
      (sameLetters : Text.lowercase newName = Text.lowercase oldName)
      (oldApart : AreApart (olds.map Prod.fst))
      (newApart : AreApart (news.map Prod.fst))
      (areOperands : ∀ operand ∈ olds.map Prod.snd, IsOperand operand.text operand)
      (respelled :
        Operand.AllRespelled mnemonic.shape.slots (olds.map Prod.snd) (news.map Prod.snd)) :
      IsRespelled (oldName ++ separatedTexts olds) (newName ++ separatedTexts news)

/-- Every spelling of a mnemonic is a word of letters. -/
theorem letters_of_ofText?
    {name : Text}
    {mnemonic : Mnemonic}
    (spelled : Mnemonic.ofText? name = some mnemonic) :
    name ≠ [] ∧ Only Char.isAlpha name := by
  have lower : mnemonic.name = Text.lowercase name := by
    simpa using List.find?_some spelled
  constructor
  · rintro rfl
    exact mnemonic.name_ne_nil lower
  · intro c member
    have inLower : c.toLower ∈ mnemonic.name := by
      rw [lower]
      exact List.mem_map_of_mem member
    exact Text.mem_class_of_toLower (fun _ letter => letter)
      (mnemonic.isAlpha_of_mem_name _ inLower)

/-- Both texts are instructions of the language, and the second means what the first one does. -/
theorem alike_of_isRespelled
    {old new : Text}
    (isRespelled : IsRespelled old new) :
    ∃ first second,
      IsInstruction old first ∧ IsInstruction new second ∧ first.Alike second := by
  obtain ⟨spelled, sameLetters, oldApart, newApart, areOperands, respelled⟩ := isRespelled
  have newSpelled := spelled
  rw [Mnemonic.ofText?, ← sameLetters, ← Mnemonic.ofText?] at newSpelled
  obtain ⟨oldNonempty, oldLetters⟩ := letters_of_ofText? spelled
  obtain ⟨newNonempty, newLetters⟩ := letters_of_ofText? newSpelled
  refine ⟨_, _, isInstruction_of_arguments oldNonempty oldLetters oldApart areOperands,
    isInstruction_of_arguments newNonempty newLetters newApart (respelled.areOperands areOperands),
    ?_⟩
  intro table index result encoded
  simp only [Assembly.encodeStatement, spelled, newSpelled] at encoded ⊢
  exact Assembly.instruction_of_respelled respelled encoded

end Statement

end TinyMips
