import TinyMips.Proofs.Assembly.Alike
import TinyMips.Proofs.Source.Item

namespace TinyMips

/-!
# Assembly does not depend on line numbers

Lines are counted for messages and listings only. Items that differ in the numbers of
their lines alone become the same instructions, and their labels name the same ones.
-/

namespace Item

/-- An item without the number of its line. -/
def unnumbered : Item → Item
  | .label _ name => .label 0 name
  | .statement _ body => .statement 0 body

/-- Without its number, a line gives the same items under any number. -/
theorem map_unnumbered_ofContent
    (number : Nat)
    (content : Content) :
    (ofContent number content).map unnumbered = ofContent 0 content := by
  simp [ofContent, Function.comp_def, unnumbered]

/-- Without their numbers, the items of lines are put together from those of each line. -/
theorem map_unnumbered_ofContents
    (start : Nat)
    (contents : List Content) :
    (ofContents start contents).map unnumbered = contents.flatMap (ofContent 0) := by
  induction contents generalizing start with
  | nil =>
      rfl
  | cons content contents inductionHypothesis =>
      have later := inductionHypothesis (start + 1)
      rw [ofContents] at later ⊢
      rw [List.zipIdx_cons, List.flatMap_cons, List.map_append, map_unnumbered_ofContent, later,
        List.flatMap_cons]

/-- Line numbers do not show in the bodies. -/
theorem bodies_of_unnumbered (items : List Item) :
    bodies (items.map unnumbered) = bodies items := by
  induction items with
  | nil =>
      rfl
  | cons item items inductionHypothesis =>
      cases item with
      | label line name => exact inductionHypothesis
      | statement line body => exact congrArg (body :: ·) inductionHypothesis

/-- Line numbers do not show in the places of labels. -/
theorem places_of_unnumbered
    (index : Nat)
    (items : List Item) :
    places index (items.map unnumbered) = places index items := by
  induction items generalizing index with
  | nil =>
      rfl
  | cons item items inductionHypothesis =>
      cases item with
      | label line name => exact congrArg ((name, index) :: ·) (inductionHypothesis index)
      | statement line body => exact inductionHypothesis (index + 1)

/-- Items that are alike without their numbers are alike with them. -/
theorem alike_of_unnumbered
    {items others : List Item}
    (alike : Alike (items.map unnumbered) (others.map unnumbered)) :
    Alike items others where
  places index := by
    simpa only [places_of_unnumbered] using alike.places index
  statements := by
    simpa only [bodies_of_unnumbered] using alike.statements

end Item

namespace SymbolTable

/-- The defined labels with the indices they name, the latest definition first. -/
def indices (table : SymbolTable) : List (Text × Nat) :=
  table.entries.map fun (name, symbol) => (name, symbol.index)

theorem indices_symbols (items : List Item) :
    (Item.symbols items).indices = (Item.places 0 items).reverse := by
  rw [indices, Item.symbols, Item.places, List.map_reverse]

end SymbolTable

namespace Program

/-- What a program does not owe to line numbers: its instructions, and what its labels name. -/
def code (program : Program) : Array Instruction × List (Text × Nat) :=
  (program.instructions, program.symbols.indices)

end Program

namespace Assembly

/-- Items that differ in line numbers only assemble to the same code. -/
theorem ofItems_of_unnumbered
    {items others : List Item}
    (same : items.map Item.unnumbered = others.map Item.unnumbered)
    {program : Program}
    (assembled : ofItems items = .ok program) :
    ∃ other, ofItems others = .ok other ∧ other.code = program.code := by
  have alike : Item.Alike items others := by
    apply Item.alike_of_unnumbered
    rw [same]
    exact .refl _
  obtain ⟨other, otherAssembled, sameInstructions, otherTable, _⟩ :=
    ofItems_of_alike alike assembled
  obtain ⟨collected, _⟩ := ofItems_eq_ok_iff.mp assembled
  obtain ⟨_, table⟩ := collectSymbols_eq_ok_iff.mp collected
  have samePlaces : Item.places 0 others = Item.places 0 items := by
    rw [← Item.places_of_unnumbered, ← same, Item.places_of_unnumbered]
  refine ⟨other, otherAssembled, ?_⟩
  rw [Program.code, Program.code, sameInstructions, otherTable, table,
    SymbolTable.indices_symbols, SymbolTable.indices_symbols, samePlaces]

/--
Items that differ in line numbers alone assemble to the same instructions, with labels
for the same ones, or do not assemble.
-/
theorem code_ofItems_of_unnumbered
    {items others : List Item}
    (same : items.map Item.unnumbered = others.map Item.unnumbered) :
    (ofItems others).toOption.map Program.code = (ofItems items).toOption.map Program.code := by
  cases assembled : ofItems items with
  | ok program =>
      obtain ⟨other, otherAssembled, sameCode⟩ := ofItems_of_unnumbered same assembled
      simp [otherAssembled, Except.toOption, sameCode]
  | error error =>
      cases otherAssembled : ofItems others with
      | error => rfl
      | ok other =>
          obtain ⟨program, found, _⟩ := ofItems_of_unnumbered same.symm otherAssembled
          simp [assembled] at found

end Assembly

end TinyMips
