import Mathlib.Data.List.Induction
import TinyMips.Proofs.Assembly.Passes

namespace TinyMips

/-!
# The first error

A source that can be read fails to assemble because a name is defined twice or because a
statement is no instruction. The first pass runs over the whole source before the second
one starts, so a name that is defined twice comes first, wherever it stands; among
statements the first one that fails is reported, and its line goes with it.
-/

namespace Item

/--
A label is the first one whose name is defined already, and the earliest label of this
name stands on the first of the two lines.
-/
def FirstRedefinition
    (items : List Item)
    (name : Text)
    (firstLine line : Nat) :
    Prop :=
  ∃ before between after,
    items = before ++ .label firstLine name :: (between ++ .label line name :: after) ∧
      (definedNames (before ++ .label firstLine name :: between)).Nodup

theorem definedNames_append
    (before after : List Item) :
    definedNames (before ++ after) = definedNames before ++ definedNames after :=
  List.filterMap_append

/-- A defined name has a label in the items. -/
theorem exists_label_of_mem_definedNames
    {items : List Item}
    {name : Text}
    (member : name ∈ definedNames items) :
    ∃ line before after, items = before ++ .label line name :: after := by
  obtain ⟨item, inItems, found⟩ := List.mem_filterMap.mp member
  cases item with
  | label line label =>
      obtain rfl := Option.some.inj found
      obtain ⟨before, after, shape⟩ := List.append_of_mem inItems
      exact ⟨line, before, after, shape⟩
  | statement line body =>
      simp at found

theorem exists_firstRedefinition
    {items : List Item}
    (repeated : ¬ (definedNames items).Nodup) :
    ∃ name firstLine line, FirstRedefinition items name firstLine line := by
  induction items using List.reverseRecOn with
  | nil =>
      simp [definedNames] at repeated
  | append_singleton items last inductionHypothesis =>
      by_cases distinct : (definedNames items).Nodup
      · cases last with
        | statement line body =>
            rw [definedNames_append] at repeated
            exact absurd distinct (by simpa [definedNames] using repeated)
        | label line name =>
            have defined : name ∈ definedNames items := by
              by_contra absent
              apply repeated
              rw [definedNames_append]
              exact List.Nodup.append distinct (by simp [definedNames])
                (by simpa [definedNames] using absent)
            obtain ⟨firstLine, before, between, rfl⟩ := exists_label_of_mem_definedNames defined
            exact ⟨name, firstLine, line, before, between, [], by simp, distinct⟩
      · obtain ⟨name, firstLine, line, before, between, after, rfl, first⟩ :=
          inductionHypothesis distinct
        exact ⟨name, firstLine, line, before, between, after ++ [last], by simp, first⟩

end Item

namespace Assembly

/--
Collecting symbols fails at the first redefinition, and names the line of the first
definition.
-/
theorem collectSymbols_of_firstRedefinition
    {items : List Item}
    {name : Text}
    {firstLine line : Nat}
    (redefined : Item.FirstRedefinition items name firstLine line) :
    collectSymbols .empty 0 items = .error ⟨line, .duplicateLabel name firstLine⟩ := by
  obtain ⟨before, between, after, rfl, distinct⟩ := redefined
  rw [← Item.map_fst_definitions 0, Item.definitions_append, Item.definitions] at distinct
  rw [collectSymbols_eq_defineAll, Item.definitions_append, Item.definitions,
    Item.definitions_append, Item.definitions]
  exact SymbolTable.defineAll_of_redefinition distinct

/-- The first pass fails exactly if a name is defined twice, and reports the first redefinition. -/
theorem collectSymbols_eq_error_iff
    {items : List Item}
    {error : AssemblyError} :
    collectSymbols .empty 0 items = .error error ↔
      ∃ name firstLine line,
        Item.FirstRedefinition items name firstLine line ∧
          error = ⟨line, .duplicateLabel name firstLine⟩ := by
  constructor
  · intro failed
    have repeated : ¬ (Item.definedNames items).Nodup := by
      intro distinct
      have collected := collectSymbols_eq_ok_iff.mpr ⟨distinct, rfl⟩
      simp [collected] at failed
    obtain ⟨name, firstLine, line, redefined⟩ := Item.exists_firstRedefinition repeated
    rw [collectSymbols_of_firstRedefinition redefined] at failed
    exact ⟨name, firstLine, line, redefined, (Except.error.inj failed).symm⟩
  · rintro ⟨name, firstLine, line, redefined, rfl⟩
    exact collectSymbols_of_firstRedefinition redefined

/-- A statement with a given number among the statements of items is an instruction. -/
def Encodes
    (items : List Item)
    (numbered : (Nat × Statement) × Nat)
    (instruction : Instruction) :
    Prop :=
  encodeStatement (Item.symbols items) numbered.2 numbered.1.2 = .ok instruction

/--
The first statement that is no instruction stands on a line and has a fault, with every
label of the items at hand, and all statements before it are instructions.
-/
def FirstFault
    (items : List Item)
    (line : Nat)
    (fault : AssemblyFault) :
    Prop :=
  ∃ before statement after,
    Item.statements items = before ++ (line, statement) :: after ∧
      (∀ numbered ∈ before.zipIdx, ∃ instruction, Encodes items numbered instruction) ∧
        encodeStatement (Item.symbols items) before.length statement = .error fault

/-- All statements are encoded exactly if each of them is encoded at its index. -/
theorem mapM_encodeAt_iff_encodes
    {items : List Item}
    {statements : List (Nat × Statement)}
    {instructions : List Instruction} :
    statements.zipIdx.mapM (encodeAt (Item.symbols items)) = .ok instructions ↔
      List.Forall₂ (Encodes items) statements.zipIdx instructions := by
  rw [mapM_eq_ok_iff]
  simp only [encodeAt, mapError_eq_ok_iff]
  rfl

/-- Encoding fails exactly with the first statement that cannot be encoded. -/
theorem mapM_encodeAt_eq_error_iff
    {items : List Item}
    {error : AssemblyError} :
    (Item.statements items).zipIdx.mapM (encodeAt (Item.symbols items)) = .error error ↔
      FirstFault items error.line error.fault := by
  rw [mapM_zipIdx_eq_error_iff]
  simp only [mapM_encodeAt_iff_encodes, exists_forall₂_iff, encodeAt, mapError_eq_error_iff]
  constructor
  · rintro ⟨before, ⟨line, statement⟩, after, shape, encoded, fault, failed, rfl⟩
    exact ⟨before, statement, after, shape, encoded, failed⟩
  · rintro ⟨before, statement, after, shape, encoded, failed⟩
    exact ⟨before, (error.line, statement), after, shape, encoded, error.fault, failed, rfl⟩

/-- Items fail to assemble in the first pass, or in the second one with all labels at hand. -/
theorem ofItems_eq_error_iff
    {items : List Item}
    {error : AssemblyError} :
    ofItems items = .error error ↔
      collectSymbols .empty 0 items = .error error ∨
        (Item.definedNames items).Nodup ∧ FirstFault items error.line error.fault := by
  rw [ofItems, bind_eq_error_iff]
  apply or_congr_right
  constructor
  · rintro ⟨table, collected, rest⟩
    obtain ⟨distinct, rfl⟩ := collectSymbols_eq_ok_iff.mp collected
    rcases bind_eq_error_iff.mp rest with failed | ⟨instructions, _, impossible⟩
    · exact ⟨distinct, mapM_encodeAt_eq_error_iff.mp failed⟩
    · simp [pure, Except.pure] at impossible
  · rintro ⟨distinct, failed⟩
    exact ⟨_, collectSymbols_eq_ok_iff.mpr ⟨distinct, rfl⟩,
      bind_eq_error_iff.mpr (.inl (mapM_encodeAt_eq_error_iff.mpr failed))⟩

/-! ## Undefined labels -/

/-- The fault of an operand is never an undefined label. -/
theorem orFault_ne_undefinedLabel
    {α : Type}
    {result : Except OperandError α}
    {name : Text} :
    orFault result ≠ .error (.undefinedLabel name) := by
  intro failed
  obtain ⟨error, _, fault⟩ := mapError_eq_error_iff.mp failed
  cases error <;> simp [OperandError.fault] at fault

/-- A label that is reported as undefined is not in the table. -/
theorem get?_of_branchField
    {table : SymbolTable}
    {index : Nat}
    {target : Operand}
    {name : Text}
    (failed : branchField table index target = .error (.undefinedLabel name)) :
    table.get? name = none := by
  rcases bind_eq_error_iff.mp failed with failed | ⟨distance, _, rest⟩
  · unfold branchDistance at failed
    split at failed
    · split at failed
      · simp at failed
      · rename_i unbound
        obtain rfl := AssemblyFault.undefinedLabel.inj (Except.error.inj failed)
        exact unbound
    · exact absurd failed orFault_ne_undefinedLabel
  · split at rest <;> simp [pure, Except.pure] at rest

/-- A label is reported as undefined only where the table has no symbol for it. -/
theorem get?_of_encodeStatement
    {table : SymbolTable}
    {index : Nat}
    {statement : Statement}
    {name : Text}
    (failed : encodeStatement table index statement = .error (.undefinedLabel name)) :
    table.get? name = none := by
  unfold encodeStatement at failed
  split at failed
  · simp at failed
  unfold instruction at failed
  -- Of all operands only the target of a branch is looked up among the labels.
  split at failed <;>
    simp only [bind_eq_error_iff, orFault_ne_undefinedLabel, pure, Except.pure, reduceCtorEq,
      false_or, and_false, exists_false, Except.error.injEq] at failed
  obtain ⟨rs, _, rt, _, target⟩ := failed
  rcases target with failed | impossible
  · exact get?_of_branchField failed
  · simp at impossible

end Assembly

/--
A source that can be read and defines a name twice fails at the first label whose name is
defined already, with the line of the earliest label of this name, whatever its statements
are. Without such a label it fails at the first statement that is no instruction, on the
line of the statement and with its fault, and otherwise each of its statements becomes one
instruction, in order. A label that some line defines is never reported as undefined.
-/
theorem assemble_reports_first_error
    {source : Text}
    {items : List Item}
    (accepted : Item.ofText source = .ok items) :
    (¬ (Item.definedNames items).Nodup →
      ∃ name firstLine line,
        Item.FirstRedefinition items name firstLine line ∧
          assemble source = .error ⟨line, .duplicateLabel name firstLine⟩) ∧
      ((Item.definedNames items).Nodup →
        (∀ name symbol,
          (Item.symbols items).get? name = some symbol ↔
            ∃ before after,
              items = before ++ .label symbol.line name :: after ∧
                symbol.index = (Item.statements before).length) ∧
          ((∃ numbered ∈ (Item.statements items).zipIdx,
              ∀ instruction, ¬ Assembly.Encodes items numbered instruction) →
            ∃ line fault,
              Assembly.FirstFault items line fault ∧ assemble source = .error ⟨line, fault⟩) ∧
          ((∀ numbered ∈ (Item.statements items).zipIdx,
              ∃ instruction, Assembly.Encodes items numbered instruction) →
            ∃ program,
              assemble source = .ok program ∧
                List.Forall₂ (Assembly.Encodes items) (Item.statements items).zipIdx
                  program.instructions.toList)) ∧
      ∀ line name,
        assemble source = .error ⟨line, .undefinedLabel name⟩ →
          ∀ definitionLine, .label definitionLine name ∉ items := by
  rw [assemble_of_ofText accepted]
  refine ⟨?_, ?_, ?_⟩
  · intro repeated
    obtain ⟨name, firstLine, line, redefined⟩ := Item.exists_firstRedefinition repeated
    exact ⟨name, firstLine, line, redefined, Assembly.ofItems_eq_error_iff.mpr
      (.inl (Assembly.collectSymbols_of_firstRedefinition redefined))⟩
  · intro distinct
    refine ⟨fun name symbol => Item.get?_symbols_eq_some_iff distinct, ?_, ?_⟩
    · rintro ⟨numbered, member, fails⟩
      cases traversed :
          (Item.statements items).zipIdx.mapM (Assembly.encodeAt (Item.symbols items)) with
      | ok instructions =>
          have encodes := Assembly.mapM_encodeAt_iff_encodes.mp traversed
          obtain ⟨instruction, encoded⟩ :=
            exists_forall₂_iff.mp ⟨instructions, encodes⟩ numbered member
          exact absurd encoded (fails instruction)
      | error error =>
          have first := Assembly.mapM_encodeAt_eq_error_iff.mp traversed
          exact ⟨error.line, error.fault, first,
            Assembly.ofItems_eq_error_iff.mpr (.inr ⟨distinct, first⟩)⟩
    · intro encoded
      obtain ⟨instructions, encodes⟩ := exists_forall₂_iff.mpr encoded
      exact ⟨⟨instructions.toArray, Item.symbols items, _⟩,
        Assembly.ofItems_eq_ok_iff.mpr
          ⟨Assembly.collectSymbols_eq_ok_iff.mpr ⟨distinct, rfl⟩,
            Assembly.mapM_encodeAt_iff_encodes.mpr encodes, rfl⟩,
        encodes⟩
  · intro line name failed definitionLine member
    obtain ⟨before, after, shape⟩ := List.append_of_mem member
    rcases Assembly.ofItems_eq_error_iff.mp failed with
      collected | ⟨distinct, _, statement, _, _, _, notEncoded⟩
    · simp [Assembly.collectSymbols_eq_error_iff] at collected
    · have unbound := Assembly.get?_of_encodeStatement notEncoded
      have bound :=
        (Item.get?_symbols_eq_some_iff distinct).mpr
          ⟨before, after, shape, (rfl : Symbol.index ⟨_, definitionLine⟩ = _)⟩
      simp [unbound] at bound

/-- A source with a statement that is no instruction before a name that is defined again. -/
def redefiningSource : Text :=
  Text.ofString "a: frob\nb: a: lui $t0, 1"

/-- A source with branches to a later label and to no label, and then an unknown mnemonic. -/
def strayingSource : Text :=
  Text.ofString "beq $t0, $t1, end\nbeq $t0, $t1, nowhere\nfrob\nend:"

/-- The second label `a` is reported, and the branch that goes nowhere. -/
theorem assemble_reports_redefinition_and_stray_branch :
    (∃ items,
      Item.ofText redefiningSource = .ok items ∧
        Item.FirstRedefinition items (Text.ofString "a") 1 2 ∧
          assemble redefiningSource = .error ⟨2, .duplicateLabel (Text.ofString "a") 1⟩) ∧
      ∃ items,
        Item.ofText strayingSource = .ok items ∧
          Assembly.FirstFault items 2 (.undefinedLabel (Text.ofString "nowhere")) ∧
            ∀ line, .label line (Text.ofString "nowhere") ∉ items := by
  constructor
  · have reported :
        assemble redefiningSource = .error ⟨2, .duplicateLabel (Text.ofString "a") 1⟩ := by
      decide +kernel
    obtain ⟨items, accepted⟩ :=
      exists_eq_ok_of_isOk (by decide +kernel : (Item.ofText redefiningSource).isOk = true)
    have repeated : ¬ (Item.definedNames items).Nodup := by
      have found :
          (Item.ofText redefiningSource).toOption.map
              (fun items => decide (Item.definedNames items).Nodup) =
            some false := by
        decide +kernel
      rw [accepted] at found
      exact of_decide_eq_false (Option.some.inj found)
    obtain ⟨name, firstLine, line, redefined, failed⟩ :=
      (assemble_reports_first_error accepted).1 repeated
    rw [failed] at reported
    cases reported
    exact ⟨items, accepted, redefined, failed⟩
  · have reported :
        assemble strayingSource = .error ⟨2, .undefinedLabel (Text.ofString "nowhere")⟩ := by
      decide +kernel
    obtain ⟨items, accepted⟩ :=
      exists_eq_ok_of_isOk (by decide +kernel : (Item.ofText strayingSource).isOk = true)
    have distinct : (Item.definedNames items).Nodup := by
      have found :
          (Item.ofText strayingSource).toOption.map
              (fun items => decide (Item.definedNames items).Nodup) =
            some true := by
        decide +kernel
      rw [accepted] at found
      exact of_decide_eq_true (Option.some.inj found)
    obtain ⟨_, afterFirstPass, undefined⟩ := assemble_reports_first_error accepted
    obtain ⟨_, fails, succeeds⟩ := afterFirstPass distinct
    have notAll :
        ¬ ∀ numbered ∈ (Item.statements items).zipIdx,
          ∃ instruction, Assembly.Encodes items numbered instruction := by
      intro encoded
      obtain ⟨program, assembled, _⟩ := succeeds encoded
      simp [assembled] at reported
    push Not at notAll
    obtain ⟨line, fault, first, failed⟩ := fails notAll
    have stray := undefined _ _ reported
    rw [failed] at reported
    cases reported
    exact ⟨items, accepted, first, stray⟩

end TinyMips
