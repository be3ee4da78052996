import TinyMips.Proofs.Assembly.Definitions

namespace TinyMips

/-!
# The two passes of assembly

An assembled program is the result of both passes over the items of its source:
each statement becomes the instruction of the same index, and each label is
bound to the number of statements before its definition.
-/

/-- A source assembles exactly if it can be read and its items assemble. -/
theorem assemble_eq_ok_iff
    {source : Text}
    {program : Program} :
    assemble source = .ok program ↔
      ∃ items,
        Item.ofText source = .ok items ∧
          Assembly.ofItems items = .ok program := by
  simp [assemble, bind_eq_ok_iff, mapError_eq_ok_iff]

/-- A source that can be read assembles as its items do. -/
theorem assemble_of_ofText
    {source : Text}
    {items : List Item}
    (accepted : Item.ofText source = .ok items) :
    assemble source = Assembly.ofItems items := by
  rw [assemble, accepted]
  rfl

namespace Assembly

/-- What both passes make of the items. -/
theorem ofItems_eq_ok_iff
    {items : List Item}
    {program : Program} :
    ofItems items = .ok program ↔
      collectSymbols .empty 0 items = .ok program.symbols ∧
        (Item.statements items).zipIdx.mapM (encodeAt program.symbols) =
          .ok program.instructions.toList ∧
        program.lines =
          ((Item.statements items).map fun (line, statement) =>
            ⟨line, statement.text⟩).toArray := by
  obtain ⟨instructions, symbols, lines⟩ := program
  simp only [ofItems, bind_eq_ok_iff, pure, Except.pure, Except.ok.injEq,
    Program.mk.injEq]
  constructor
  · rintro ⟨table, collected, encoded, traversed, rfl, rfl, rfl⟩
    exact ⟨collected, traversed, rfl⟩
  · rintro ⟨collected, traversed, rfl⟩
    exact ⟨symbols, collected, instructions.toList, traversed, rfl, rfl, rfl⟩

/-- The statement with a given index becomes the instruction with that index. -/
theorem instruction_of_statement
    {items : List Item}
    {program : Program}
    (assembled : ofItems items = .ok program)
    {index line : Nat}
    {statement : Statement}
    (found : (Item.statements items)[index]? = some (line, statement)) :
    ∃ instruction,
      program.instructions[index]? = some instruction ∧
        encodeStatement program.symbols index statement = .ok instruction := by
  obtain ⟨_, traversed, _⟩ := ofItems_eq_ok_iff.mp assembled
  have numbered :
      (Item.statements items).zipIdx[index]? = some ((line, statement), index) := by
    simp [List.getElem?_zipIdx, found]
  obtain ⟨instruction, placed, encoded⟩ :=
    exists_getElem?_of_forall₂ (mapM_eq_ok_iff.mp traversed) numbered
  exact ⟨instruction, by simpa using placed, mapError_eq_ok_iff.mp encoded⟩

/-- There are as many instructions as statements. -/
theorem size_eq_length_statements
    {items : List Item}
    {program : Program}
    (assembled : ofItems items = .ok program) :
    program.size = (Item.statements items).length := by
  obtain ⟨_, traversed, _⟩ := ofItems_eq_ok_iff.mp assembled
  have sameLength := (mapM_eq_ok_iff.mp traversed).length_eq
  simpa [Program.size] using sameLength.symm

/-- A label that some item defines is bound to the number of statements before that item. -/
theorem get?_of_label
    {table result : SymbolTable}
    {index line : Nat}
    {before after : List Item}
    {name : Text}
    (collected :
      collectSymbols table index (before ++ .label line name :: after) = .ok result) :
    result.get? name = some ⟨index + (Item.statements before).length, line⟩ := by
  rw [collectSymbols_eq_defineAll, SymbolTable.defineAll_eq_ok_iff] at collected
  obtain ⟨distinct, _, rfl⟩ := collected
  apply SymbolTable.get?_append_of_eq_some
  rw [SymbolTable.get?_reverse_eq_some_iff distinct, Item.mem_definitions_iff]
  exact ⟨before, after, rfl, rfl⟩

/-- A label that is bound after the first pass was bound before it or is defined by some item. -/
theorem label_of_get?
    {table result : SymbolTable}
    {index : Nat}
    {items : List Item}
    (collected : collectSymbols table index items = .ok result)
    {name : Text}
    {symbol : Symbol}
    (bound : result.get? name = some symbol) :
    table.get? name = some symbol ∨
      ∃ before after, items = before ++ .label symbol.line name :: after := by
  rw [collectSymbols_eq_defineAll, SymbolTable.defineAll_eq_ok_iff] at collected
  obtain ⟨distinct, _, rfl⟩ := collected
  rcases SymbolTable.eq_some_of_get?_append bound with defined | early
  · rw [SymbolTable.get?_reverse_eq_some_iff distinct, Item.mem_definitions_iff] at defined
    obtain ⟨before, after, shape, _⟩ := defined
    exact .inr ⟨before, after, shape⟩
  · exact .inl early

end Assembly

end TinyMips
