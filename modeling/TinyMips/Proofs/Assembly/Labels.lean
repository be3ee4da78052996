import Mathlib.Data.Char
import Mathlib.Data.List.Lex
import TinyMips.Proofs.Assembly.Passes
import TinyMips.Proofs.Grammar.Source

namespace TinyMips

/-!
# Labels of an assembled program

The labels that name an instruction are those that the symbol table binds to its index,
each of them once and in order. In an assembled program they are identifiers, and none is
bound beyond the end.
-/

namespace SymbolTable

theorem nameLe_iff
    {first second : Text} :
    nameLe first second = true ↔ first ≤ second := by
  simp [nameLe]

/-- The labels at an index are the names whose entries have it. -/
theorem mem_labelsAt_iff
    {table : SymbolTable}
    {index : Nat}
    {name : Text} :
    name ∈ table.labelsAt index ↔
      ∃ symbol, (name, symbol) ∈ table.entries ∧ symbol.index = index := by
  simp [labelsAt]

/-- Where no name has two entries, the labels at an index are what the table binds to it. -/
theorem mem_labelsAt_iff_get?
    {table : SymbolTable}
    (distinct : (table.entries.map Prod.fst).Nodup)
    {index : Nat}
    {name : Text} :
    name ∈ table.labelsAt index ↔
      ∃ symbol, table.get? name = some symbol ∧ symbol.index = index := by
  simp only [mem_labelsAt_iff, get?_eq_some_iff distinct]

/-- The labels at an index are listed by name. -/
theorem pairwise_nameLe_labelsAt
    (table : SymbolTable)
    (index : Nat) :
    (table.labelsAt index).Pairwise fun first second => nameLe first second = true := by
  refine List.pairwise_mergeSort ?_ ?_ _
  · intro first second third
    simpa only [nameLe_iff] using le_trans
  · intro first second
    simpa only [Bool.or_eq_true, nameLe_iff] using le_total first second

/-- Where no name has two entries, the labels at an index are in strict order. -/
theorem pairwise_labelsAt
    {table : SymbolTable}
    (distinct : (table.entries.map Prod.fst).Nodup)
    (index : Nat) :
    (table.labelsAt index).Pairwise (· < ·) := by
  have ordered : (table.labelsAt index).Pairwise (· ≤ ·) :=
    (table.pairwise_nameLe_labelsAt index).imp nameLe_iff.mp
  have nodup : (table.labelsAt index).Nodup := by
    rw [labelsAt, (List.mergeSort_perm _ _).nodup_iff]
    exact distinct.sublist (List.filter_sublist.map Prod.fst)
  exact ordered.imp₂ (fun _ _ => lt_of_le_of_ne) nodup

end SymbolTable

/-- What is known of the labels of a program. -/
structure Program.IsLabelled (program : Program) : Prop where
  /-- No name has two entries. -/
  distinct : (program.symbols.entries.map Prod.fst).Nodup
  /-- Names are identifiers of the source language. -/
  isIdentifier :
    ∀ {name : Text} {symbol : Symbol},
      program.symbols.get? name = some symbol → Grammar.Identifier name
  /-- No label is bound beyond the end of the program. -/
  index_le :
    ∀ {name : Text} {symbol : Symbol},
      program.symbols.get? name = some symbol → symbol.index ≤ program.size

namespace Grammar

/-- Every label on a line is an identifier. -/
theorem AreLabels.identifier_of_mem
    {text : Text}
    {names : List Text}
    (areLabels : AreLabels text names)
    {name : Text}
    (member : name ∈ names) :
    Identifier name := by
  induction areLabels with
  | none =>
      simp at member
  | label isIdentifier _ _ inductionHypothesis =>
      rcases List.mem_cons.mp member with rfl | later
      · exact isIdentifier
      · exact inductionHypothesis later

end Grammar

/-- A label of a source that can be read is an identifier. -/
theorem Item.identifier_of_ofText
    {source : Text}
    {items : List Item}
    (accepted : ofText source = .ok items)
    {line : Nat}
    {name : Text}
    (member : .label line name ∈ items) :
    Grammar.Identifier name := by
  obtain ⟨row, content, number, isLine, inContent⟩ := exists_isLine_of_mem accepted member
  have labelled : name ∈ content.labels := by
    simp only [ofContent, List.mem_append, List.mem_map, reduceCtorEq, and_false, exists_false,
      or_false] at inContent
    obtain ⟨label, inLabels, same⟩ := inContent
    obtain ⟨_, rfl⟩ := Item.label.inj same
    exact inLabels
  cases isLine with
  | mk _ areLabels _ _ _ => exact areLabels.identifier_of_mem labelled

/-- An assembled program has labels that are identifiers, each of them bound once. -/
theorem Program.isLabelled_of_assemble
    {source : Text}
    {program : Program}
    (assembled : assemble source = .ok program) :
    program.IsLabelled := by
  obtain ⟨items, accepted, assembledItems⟩ := assemble_eq_ok_iff.mp assembled
  obtain ⟨collected, _⟩ := Assembly.ofItems_eq_ok_iff.mp assembledItems
  obtain ⟨distinct, symbols⟩ := Assembly.collectSymbols_eq_ok_iff.mp collected
  have bound
      {name : Text}
      {symbol : Symbol}
      (found : program.symbols.get? name = some symbol) :
      ∃ before after,
        items = before ++ .label symbol.line name :: after ∧
          symbol.index = (Item.statements before).length := by
    rw [symbols] at found
    exact (Item.get?_symbols_eq_some_iff distinct).mp found
  refine ⟨?_, fun {name symbol} found => ?_, fun {name symbol} found => ?_⟩
  · rw [symbols, Item.symbols, List.map_reverse, List.nodup_reverse, Item.map_fst_definitions]
    exact distinct
  · obtain ⟨before, after, shape, _⟩ := bound found
    have member : .label symbol.line name ∈ items := by
      simp [shape]
    exact Item.identifier_of_ofText accepted member
  · obtain ⟨before, after, shape, counted⟩ := bound found
    rw [Assembly.size_eq_length_statements assembledItems, counted, shape]
    simp [Item.statements]

end TinyMips
