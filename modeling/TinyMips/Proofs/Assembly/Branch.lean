import Mathlib.Data.Int.Cast.Basic
import Mathlib.Tactic.Ring
import TinyMips.Proofs.Assembly.Passes
import TinyMips.Proofs.Machine.Effect
import TinyMips.Proofs.Source.Slot

namespace TinyMips

/-!
# Branches land on their labels

The first pass counts the statements before a label, the second counts the
statements before a branch, and the machine counts bytes from the instruction
after the branch. These agree: a taken branch to a label goes to the address of
the first instruction after the label's definition.
-/

/-- A distance that fits the field of a branch keeps its value in a word. -/
theorem Half.signExtended_ofInt
    {distance : Int}
    (fits : Bounds.signedHalf.contains distance = true) :
    Half.signExtended (BitVec.ofInt 16 distance) = BitVec.ofInt 32 distance := by
  obtain ⟨low, high⟩ := Bounds.contains_iff.mp fits
  unfold Half.signExtended BitVec.signExtend
  rw [Half.toInt_ofInt low high]

/-- The distance to an index, added four times to the address after an instruction. -/
theorem Word.ofIndex_add_distance
    (source target : Nat) :
    Word.ofIndex source + 4 + 4 * BitVec.ofInt 32 (target - (source + 1)) =
      Word.ofIndex target := by
  have asInt (index : Nat) : Word.ofIndex index = BitVec.ofInt 32 (4 * index) := by
    rw [Word.ofIndex, ← BitVec.ofInt_natCast]
    push_cast
    rfl
  have four : (4 : Word) = BitVec.ofInt 32 4 := rfl
  rw [asInt, asInt, four, ← BitVec.ofInt_mul, ← BitVec.ofInt_add, ← BitVec.ofInt_add]
  congr 1
  ring

namespace Assembly

/-- The field of a branch to a label holds the distance to the label's index. -/
theorem branchField_symbol
    {table : SymbolTable}
    {index : Nat}
    {label : Text}
    {field : Half}
    (found : branchField table index (.symbol label) = .ok field) :
    ∃ symbol,
      table.get? label = some symbol ∧
        field.signExtended = BitVec.ofInt 32 (symbol.index - (index + 1)) := by
  obtain ⟨distance, measured, rest⟩ := bind_eq_ok_iff.mp found
  cases bound : table.get? label with
  | none =>
      simp [branchDistance, bound] at measured
  | some symbol =>
      obtain rfl : _ = distance := by simpa [branchDistance, bound] using measured
      split at rest
      · rename_i fits
        obtain rfl := Except.ok.inj rest
        exact ⟨symbol, rfl, Half.signExtended_ofInt fits⟩
      · simp at rest

/-- A branch statement with three operands becomes a branch with their values. -/
theorem encodeStatement_beq
    {table : SymbolTable}
    {index : Nat}
    {statement : Statement}
    {first second target : Operand}
    {instruction : Instruction}
    (isBranch : Mnemonic.ofText? statement.mnemonic = some .beq)
    (operands : statement.operands = [first, second, target])
    (encoded : encodeStatement table index statement = .ok instruction) :
    ∃ rs rt field,
      instruction = .beq rs rt field ∧
        first.asRegister = .ok rs ∧
        second.asRegister = .ok rt ∧
        branchField table index target = .ok field := by
  simp only [encodeStatement, isBranch, operands, Assembly.instruction, orFault] at encoded
  obtain ⟨rs, firstRead, encoded⟩ := bind_eq_ok_iff.mp encoded
  obtain ⟨rt, secondRead, encoded⟩ := bind_eq_ok_iff.mp encoded
  obtain ⟨field, measured, encoded⟩ := bind_eq_ok_iff.mp encoded
  exact ⟨rs, rt, field, (Except.ok.inj encoded).symm,
    mapError_eq_ok_iff.mp firstRead, mapError_eq_ok_iff.mp secondRead, measured⟩

end Assembly

namespace Machine

/-- A branch whose registers are equal goes to its target. -/
theorem execute_beq_of_equal
    {machine : Machine}
    {rs rt : Reg}
    {field : Half}
    (equal : machine.registers.read rs = machine.registers.read rt) :
    (machine.execute (.beq rs rt field)).1 =
        .ok (.branch true (machine.pc + 4 + 4 * field.signExtended)) ∧
      (machine.execute (.beq rs rt field)).2.pc =
        machine.pc + 4 + 4 * field.signExtended := by
  have evaluated :
      machine.evaluate (.beq rs rt field) =
        .ok (.branch true (machine.pc + 4 + 4 * field.signExtended)) := by
    simp [evaluate, equal, Alu.result]
  rw [execute_of_evaluate_ok evaluated]
  exact ⟨rfl, rfl⟩

/-- Within the address space, the instruction with an index is fetched at four times the index. -/
theorem fetch_ofIndex
    {machine : Machine}
    {program : Array Instruction}
    {index : Nat}
    {instruction : Instruction}
    (addressable : index < 2 ^ 30)
    (found : program[index]? = some instruction)
    (here : machine.pc = Word.ofIndex index) :
    machine.fetch program = .ok instruction := by
  have address : machine.pc.toNat = 4 * index := by
    rw [here, Word.toNat_ofIndex addressable]
  have aligned : machine.pc.isAligned = true := by
    simp [Word.isAligned, address]
  have place : machine.pc.index = index := by
    simp [Word.index, address]
  simp [fetch, aligned, place, found]

end Machine

namespace Assembly

/-- The instruction after a label's definition is that of the first statement there. -/
theorem instruction_after_label
    {items before after : List Item}
    {program : Program}
    {line : Nat}
    {label : Text}
    (assembled : ofItems items = .ok program)
    (shape : items = before ++ .label line label :: after)
    (inside : (Item.statements before).length < program.size) :
    ∃ nextLine next rest instruction,
      Item.statements after = (nextLine, next) :: rest ∧
        program.instructions[(Item.statements before).length]? = some instruction ∧
        encodeStatement program.symbols (Item.statements before).length next =
          .ok instruction := by
  have sizes := size_eq_length_statements assembled
  have split :
      Item.statements items = Item.statements before ++ Item.statements after := by
    rw [shape]
    simp [Item.statements]
  cases following : Item.statements after with
  | nil =>
      rw [split, following, List.append_nil] at sizes
      omega
  | cons next rest =>
      obtain ⟨nextLine, next⟩ := next
      have found :
          (Item.statements items)[(Item.statements before).length]? =
            some (nextLine, next) := by
        rw [split, following]
        simp
      obtain ⟨instruction, placed, encoded⟩ := instruction_of_statement assembled found
      exact ⟨nextLine, next, rest, instruction, rfl, placed, encoded⟩

end Assembly

/--
A taken branch to a label goes to the address of the label, which is that of the
first instruction after the label's definition.
-/
theorem branch_lands_on_label
    {source : Text}
    {items : List Item}
    {program : Program}
    (readSource : Item.ofText source = .ok items)
    (assembled : assemble source = .ok program)
    {index line : Nat}
    {statement : Statement}
    (found : (Item.statements items)[index]? = some (line, statement))
    (isBranch : Mnemonic.ofText? statement.mnemonic = some .beq)
    {first second : Operand}
    {label : Text}
    (operands : statement.operands = [first, second, .symbol label]) :
    ∃ rs rt field symbol,
      program.instructions[index]? = some (.beq rs rt field) ∧
        first.asRegister = .ok rs ∧
        second.asRegister = .ok rt ∧
        program.symbols.get? label = some symbol ∧
        program.entryAddress? label = some (Word.ofIndex symbol.index) ∧
        (∀ machine : Machine,
          machine.pc = Word.ofIndex index →
          machine.registers.read rs = machine.registers.read rt →
          (machine.execute (.beq rs rt field)).1 =
              .ok (.branch true (Word.ofIndex symbol.index)) ∧
            (machine.execute (.beq rs rt field)).2.pc = Word.ofIndex symbol.index) ∧
        (∃ before after, items = before ++ .label symbol.line label :: after) ∧
        ∀ before definitionLine after,
          items = before ++ .label definitionLine label :: after →
          symbol.index = (Item.statements before).length ∧
            (program.size ≤ 2 ^ 30 →
              symbol.index < program.size →
              ∃ nextLine next rest instruction,
                Item.statements after = (nextLine, next) :: rest ∧
                  Assembly.encodeStatement program.symbols symbol.index next =
                    .ok instruction ∧
                  ∀ machine : Machine,
                    machine.pc = Word.ofIndex symbol.index →
                    machine.fetch program.instructions = .ok instruction) := by
  obtain ⟨sameItems, sameRead, assembledItems⟩ := assemble_eq_ok_iff.mp assembled
  obtain rfl : items = sameItems := Except.ok.inj (readSource.symm.trans sameRead)
  obtain ⟨collected, _⟩ := Assembly.ofItems_eq_ok_iff.mp assembledItems
  obtain ⟨branch, placed, encoded⟩ :=
    Assembly.instruction_of_statement assembledItems found
  obtain ⟨rs, rt, field, rfl, firstRead, secondRead, measured⟩ :=
    Assembly.encodeStatement_beq isBranch operands encoded
  obtain ⟨symbol, bound, distance⟩ := Assembly.branchField_symbol measured
  refine ⟨rs, rt, field, symbol, placed, firstRead, secondRead, bound, ?_, ?_, ?_, ?_⟩
  · simp [Program.entryAddress?, bound, Symbol.address]
  · intro machine here equal
    have target :
        machine.pc + 4 + 4 * field.signExtended = Word.ofIndex symbol.index := by
      rw [here, distance]
      exact Word.ofIndex_add_distance index symbol.index
    rw [← target]
    exact Machine.execute_beq_of_equal equal
  · rcases Assembly.label_of_get? collected bound with impossible | defined
    · simp [SymbolTable.empty, SymbolTable.get?] at impossible
    · exact defined
  · intro before definitionLine after shape
    -- Any definition of the label is the one that is bound, since a second one is refused.
    have count : symbol.index = (Item.statements before).length := by
      rw [shape] at collected
      have same := Assembly.get?_of_label collected
      rw [bound] at same
      obtain rfl := Option.some.inj same
      simp
    refine ⟨count, ?_⟩
    rw [count]
    intro addressable inside
    obtain ⟨nextLine, next, rest, instruction, following, nextPlaced, nextEncoded⟩ :=
      Assembly.instruction_after_label assembledItems shape inside
    refine ⟨nextLine, next, rest, instruction, following, nextEncoded, ?_⟩
    intro machine here
    exact Machine.fetch_ofIndex (by omega) nextPlaced here

/-- A source with a branch to the end of the program and a branch back to its start. -/
def loopSource : Text :=
  Text.ofString "loop: beq $t0, $t1, done\nbeq $zero, $zero, loop\ndone:"

/-- The statement of `loopSource` that branches back. -/
def loopStatement : Statement where
  mnemonic := Text.ofString "beq"
  operands :=
    [.register (Text.ofString "$zero"), .register (Text.ofString "$zero"),
      .symbol (Text.ofString "loop")]
  text := Text.ofString "beq $zero, $zero, loop"

/-- The branch back, at address four, goes to address zero. -/
theorem loopSource_branches_back :
    ∃ items program,
      Item.ofText loopSource = .ok items ∧
        assemble loopSource = .ok program ∧
        (Item.statements items)[1]? = some (2, loopStatement) ∧
        Mnemonic.ofText? loopStatement.mnemonic = some .beq ∧
        ∃ field,
          program.instructions[1]? = some (.beq .zero .zero field) ∧
            program.entryAddress? (Text.ofString "loop") = some 0 ∧
            ∀ machine : Machine,
              machine.pc = 4 →
              (machine.execute (.beq .zero .zero field)).2.pc = 0 := by
  have second :
      ((Item.ofText loopSource).toOption.bind fun items =>
          (Item.statements items)[1]?) =
        some (2, loopStatement) := by
    decide +kernel
  have entry :
      ((assemble loopSource).toOption.bind fun program =>
          program.entryAddress? (Text.ofString "loop")) =
        some 0 := by
    decide +kernel
  have isBranch : Mnemonic.ofText? loopStatement.mnemonic = some .beq := by
    decide +kernel
  have zeroRead : (Operand.register (Text.ofString "$zero")).asRegister = .ok Reg.zero := by
    decide +kernel
  obtain ⟨items, readSource⟩ :=
    exists_eq_ok_of_isOk (by decide +kernel : (Item.ofText loopSource).isOk = true)
  obtain ⟨program, assembled⟩ :=
    exists_eq_ok_of_isOk (by decide +kernel : (assemble loopSource).isOk = true)
  rw [readSource] at second
  rw [assembled] at entry
  obtain ⟨rs, rt, field, symbol, placed, firstRead, secondRead, _, entryFound, lands, _⟩ :=
    branch_lands_on_label readSource assembled second isBranch rfl
  obtain rfl := Except.ok.inj (firstRead.symm.trans zeroRead)
  obtain rfl := Except.ok.inj (secondRead.symm.trans zeroRead)
  have target := Option.some.inj (entryFound.symm.trans entry)
  refine ⟨items, program, readSource, assembled, second, isBranch, field, placed, entry, ?_⟩
  intro machine here
  rw [(lands machine here rfl).2, target]

end TinyMips
