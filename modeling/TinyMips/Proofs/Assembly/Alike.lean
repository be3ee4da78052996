import Mathlib.Data.List.Perm.Basic
import TinyMips.Proofs.Assembly.Passes

namespace TinyMips

/-!
# Items that assemble alike

The first pass does not care in which order the labels in front of a statement stand, and
the second one knows labels by their indices alone. So items assemble to the same
instructions, with the same index for each name, if they define the same names at the same
places and have statements that mean the same one after the other.
-/

namespace Item

/-- The names that items define, each with the number of statements before it. -/
def places (index : Nat) (items : List Item) : List (Text × Nat) :=
  (definitions index items).map fun (name, symbol) => (name, symbol.index)

/-- The statements among items, without the lines they stand on. -/
def bodies (items : List Item) : List Statement :=
  (statements items).map Prod.snd

/-- There are as many bodies as statements. -/
theorem length_bodies (items : List Item) :
    (bodies items).length = (statements items).length :=
  List.length_map Prod.snd

theorem bodies_append
    (before after : List Item) :
    bodies (before ++ after) = bodies before ++ bodies after := by
  simp only [bodies, statements, List.filterMap_append, List.map_append]

/-- The names with places are the names that are defined. -/
theorem map_fst_places
    (index : Nat)
    (items : List Item) :
    (places index items).map Prod.fst = definedNames items := by
  rw [places, List.map_map, ← map_fst_definitions index]
  rfl

/-- Later items are placed behind the statements of the earlier ones. -/
theorem places_append
    (index : Nat)
    (before after : List Item) :
    places index (before ++ after) =
      places index before ++ places (index + (statements before).length) after := by
  rw [places, definitions_append, List.map_append]
  rfl

/-- Where no name is defined twice, a name is found at an index exactly if it has that place. -/
theorem index_get?_symbols_eq_some_iff
    {items : List Item}
    (distinct : (definedNames items).Nodup)
    {name : Text}
    {index : Nat} :
    ((symbols items).get? name).map Symbol.index = some index ↔ (name, index) ∈ places 0 items := by
  rw [← map_fst_definitions 0] at distinct
  simp only [Option.map_eq_some_iff, symbols, SymbolTable.get?_reverse_eq_some_iff distinct,
    places, List.mem_map, Prod.mk.injEq]
  constructor
  · rintro ⟨symbol, defined, rfl⟩
    exact ⟨(name, symbol), defined, rfl, rfl⟩
  · rintro ⟨⟨_, symbol⟩, defined, rfl, rfl⟩
    exact ⟨symbol, defined, rfl⟩

end Item

namespace Assembly

/-- The distance to a label is read off the index alone. -/
theorem branchDistance_symbol
    (table : SymbolTable)
    (index : Nat)
    (name : Text) :
    branchDistance table index (.symbol name) =
      match (table.get? name).map Symbol.index with
      | some target => .ok (target - (index + 1))
      | none => .error (.undefinedLabel name) := by
  rw [branchDistance]
  cases table.get? name <;> rfl

/-- Tables with the same index for each name turn a statement into the same instruction. -/
theorem encodeStatement_of_sameIndices
    {first second : SymbolTable}
    (same : ∀ name, (first.get? name).map Symbol.index = (second.get? name).map Symbol.index) :
    encodeStatement first = encodeStatement second := by
  have sameDistance : branchDistance first = branchDistance second := by
    funext index target
    cases target with
    | symbol name => rw [branchDistance_symbol, branchDistance_symbol, same]
    | _ => rfl
  have sameField : branchField first = branchField second := by
    funext index target
    rw [branchField, branchField, sameDistance]
  have sameInstruction : instruction first = instruction second := by
    funext index mnemonic operands
    unfold instruction
    rw [sameField]
  funext index statement
  unfold encodeStatement
  rw [sameInstruction]

/-- The second pass reads the statements alone, and not where they were written. -/
theorem mapM_encodeAt_eq_ok_iff
    {table : SymbolTable}
    {items : List Item}
    {instructions : List Instruction} :
    (Item.statements items).zipIdx.mapM (encodeAt table) = .ok instructions ↔
      List.Forall₂ (fun numbered result => encodeStatement table numbered.2 numbered.1 = .ok result)
        (Item.bodies items).zipIdx instructions := by
  rw [mapM_eq_ok_iff, Item.bodies, List.zipIdx_map, List.forall₂_map_left_iff]
  simp only [encodeAt, mapError_eq_ok_iff]
  rfl

end Assembly

/-- One statement becomes whatever instruction the other one does. -/
def Statement.Alike (first second : Statement) : Prop :=
  ∀ table index instruction,
    Assembly.encodeStatement table index first = .ok instruction →
      Assembly.encodeStatement table index second = .ok instruction

/-- A statement means what its mnemonic and operands do, and its text plays no role. -/
theorem Statement.alike_of_same
    {first second : Statement}
    (sameMnemonic : first.mnemonic = second.mnemonic)
    (sameOperands : first.operands = second.operands) :
    first.Alike second := by
  intro table index instruction encoded
  rwa [Assembly.encodeStatement, ← sameMnemonic, ← sameOperands]

theorem Statement.forall₂_alike_refl (statements : List Statement) :
    List.Forall₂ Alike statements statements :=
  List.forall₂_same.mpr fun _ _ _ _ _ encoded => encoded

/-- Items define the same names at the same places, and their statements mean the same. -/
structure Item.Alike (items others : List Item) : Prop where
  places : ∀ index, (places index items).Perm (Item.places index others)
  statements : List.Forall₂ Statement.Alike (bodies items) (bodies others)

namespace Item

theorem Alike.refl (items : List Item) :
    Alike items items where
  places _ := .refl _
  statements := Statement.forall₂_alike_refl (bodies items)

/-- Items that are alike part by part are alike. -/
theorem Alike.append
    {first second others more : List Item}
    (firstAlike : Alike first others)
    (secondAlike : Alike second more) :
    Alike (first ++ second) (others ++ more) where
  places index := by
    have sameCount := firstAlike.statements.length_eq
    rw [length_bodies, length_bodies] at sameCount
    rw [places_append, places_append, sameCount]
    exact (firstAlike.places index).append (secondAlike.places _)
  statements := by
    rw [bodies_append, bodies_append]
    exact List.rel_append firstAlike.statements secondAlike.statements

/-- Items that define the same names do so without repetition or not. -/
theorem Alike.nodup
    {items others : List Item}
    (alike : Alike items others)
    (distinct : (definedNames items).Nodup) :
    (definedNames others).Nodup := by
  have sameNames := (alike.places 0).map Prod.fst
  rw [map_fst_places, map_fst_places] at sameNames
  exact sameNames.nodup_iff.mp distinct

/-- Items that are alike place their labels at the same indices. -/
theorem Alike.index_get?
    {items others : List Item}
    (alike : Alike items others)
    (distinct : (definedNames items).Nodup)
    (name : Text) :
    ((symbols others).get? name).map Symbol.index = ((symbols items).get? name).map Symbol.index := by
  ext index
  rw [index_get?_symbols_eq_some_iff distinct,
    index_get?_symbols_eq_some_iff (alike.nodup distinct), (alike.places 0).mem_iff]

end Item

namespace Assembly

/-- Statements that mean the same, one after the other, become the same instructions. -/
theorem encodes_of_alike
    {table : SymbolTable}
    {statements others : List Statement}
    (alike : List.Forall₂ Statement.Alike statements others)
    {start : Nat}
    {instructions : List Instruction}
    (encoded :
      List.Forall₂ (fun numbered result => encodeStatement table numbered.2 numbered.1 = .ok result)
        (statements.zipIdx start) instructions) :
    List.Forall₂ (fun numbered result => encodeStatement table numbered.2 numbered.1 = .ok result)
      (others.zipIdx start) instructions := by
  induction alike generalizing start instructions with
  | nil =>
      exact encoded
  | cons alike _ inductionHypothesis =>
      rw [List.zipIdx_cons] at encoded ⊢
      cases encoded with
      | cons first later => exact .cons (alike _ _ _ first) (inductionHypothesis later)

/-- Items that are alike assemble to the same instructions and to the same places of labels. -/
theorem ofItems_of_alike
    {items others : List Item}
    (alike : Item.Alike items others)
    {program : Program}
    (assembled : ofItems items = .ok program) :
    ∃ other,
      ofItems others = .ok other ∧
        other.instructions = program.instructions ∧ other.symbols = Item.symbols others ∧
          ∀ name,
            (other.symbols.get? name).map Symbol.index =
              (program.symbols.get? name).map Symbol.index := by
  obtain ⟨collected, encoded, _⟩ := ofItems_eq_ok_iff.mp assembled
  obtain ⟨distinct, table⟩ := collectSymbols_eq_ok_iff.mp collected
  have sameIndices := alike.index_get? distinct
  have otherEncoded :
      (Item.statements others).zipIdx.mapM (encodeAt (Item.symbols others)) =
        .ok program.instructions.toList := by
    -- The tables are exchanged first, so that the other statements are read with the old one.
    rw [table, mapM_encodeAt_eq_ok_iff] at encoded
    rw [mapM_encodeAt_eq_ok_iff, encodeStatement_of_sameIndices sameIndices]
    exact encodes_of_alike alike.statements encoded
  have otherCollected := collectSymbols_eq_ok_iff.mpr ⟨alike.nodup distinct, rfl⟩
  refine ⟨⟨program.instructions, Item.symbols others, _⟩,
    ofItems_eq_ok_iff.mpr ⟨otherCollected, otherEncoded, rfl⟩, rfl, rfl, ?_⟩
  rw [table]
  exact sameIndices

end Assembly

end TinyMips
