import Mathlib.Data.List.Nodup
import TinyMips.Assembly.Basic
import TinyMips.Proofs.Traversal

namespace TinyMips

/-!
# The first pass

The first pass defines the labels of a source one after the other. It fails at the first
name that is defined already, and otherwise the symbol table holds these definitions and
nothing else, so what a label names can be read off the items.
-/

namespace SymbolTable

/-- A definition succeeds exactly for a name without a symbol, and binds that name alone. -/
theorem define_eq_ok_iff
    {table result : SymbolTable}
    {name : Text}
    {symbol : Symbol} :
    table.define name symbol = .ok result ↔
      table.get? name = none ∧ result = ⟨(name, symbol) :: table.entries⟩ := by
  unfold define
  cases table.get? name <;> simp [eq_comm]

/-- The entry in front hides every later entry of its name. -/
theorem get?_cons
    (entries : List (Text × Symbol))
    (name other : Text)
    (symbol : Symbol) :
    SymbolTable.get? ⟨(name, symbol) :: entries⟩ other =
      if other = name then some symbol else SymbolTable.get? ⟨entries⟩ other := by
  by_cases same : other = name
  · simp [get?, same]
  · have different : (other == name) = false := by simpa using same
    simp [get?, List.lookup_cons, different, same]

/-- Where no name has two entries, what a name stands for is its entry. -/
theorem get?_eq_some_iff
    {entries : List (Text × Symbol)}
    (distinct : (entries.map Prod.fst).Nodup)
    {name : Text}
    {symbol : Symbol} :
    SymbolTable.get? ⟨entries⟩ name = some symbol ↔ (name, symbol) ∈ entries := by
  induction entries with
  | nil =>
      simp [get?]
  | cons entry entries inductionHypothesis =>
      obtain ⟨label, first⟩ := entry
      obtain ⟨absent, distinctLater⟩ := List.nodup_cons.mp distinct
      rw [get?_cons, List.mem_cons]
      split
      · rename_i same
        subst same
        have noOther : (name, symbol) ∉ entries := by
          intro member
          exact absent (List.mem_map.mpr ⟨_, member, rfl⟩)
        simp [noOther, eq_comm]
      · rename_i different
        rw [inductionHypothesis distinctLater]
        simp [different]

/-- The order of entries does not matter where no name has two of them. -/
theorem get?_reverse_eq_some_iff
    {entries : List (Text × Symbol)}
    (distinct : (entries.map Prod.fst).Nodup)
    {name : Text}
    {symbol : Symbol} :
    get? ⟨entries.reverse⟩ name = some symbol ↔ (name, symbol) ∈ entries := by
  have distinctReversed : (entries.reverse.map Prod.fst).Nodup := by
    rw [List.map_reverse]
    exact List.nodup_reverse.mpr distinct
  exact (get?_eq_some_iff distinctReversed).trans List.mem_reverse

/-- A name that the front part binds is bound so by the whole. -/
theorem get?_append_of_eq_some
    {first second : List (Text × Symbol)}
    {name : Text}
    {symbol : Symbol}
    (bound : get? ⟨first⟩ name = some symbol) :
    get? ⟨first ++ second⟩ name = some symbol := by
  rw [get?, List.lookup_append]
  exact Option.or_eq_some_iff.mpr (.inl bound)

/-- A name that the whole binds is bound by one of the parts. -/
theorem eq_some_of_get?_append
    {first second : List (Text × Symbol)}
    {name : Text}
    {symbol : Symbol}
    (bound : get? ⟨first ++ second⟩ name = some symbol) :
    get? ⟨first⟩ name = some symbol ∨ get? ⟨second⟩ name = some symbol := by
  rw [get?, List.lookup_append] at bound
  rcases Option.or_eq_some_iff.mp bound with early | ⟨_, late⟩
  · exact .inl early
  · exact .inr late

/-- Define labels one after the other. -/
def defineAll
    (table : SymbolTable)
    (definitions : List (Text × Symbol)) :
    Except AssemblyError SymbolTable :=
  definitions.foldlM (fun table (name, symbol) => table.define name symbol) table

/-- Definitions succeed exactly if all names are new, and are then what is added. -/
theorem defineAll_eq_ok_iff
    {table result : SymbolTable}
    {definitions : List (Text × Symbol)} :
    table.defineAll definitions = .ok result ↔
      (definitions.map Prod.fst).Nodup ∧
        (∀ name ∈ definitions.map Prod.fst, table.get? name = none) ∧
          result = ⟨definitions.reverse ++ table.entries⟩ := by
  induction definitions generalizing table with
  | nil =>
      obtain ⟨entries⟩ := table
      simp [defineAll, pure, Except.pure, eq_comm]
  | cons definition definitions inductionHypothesis =>
      obtain ⟨name, symbol⟩ := definition
      have later (extended : SymbolTable) := @inductionHypothesis extended
      unfold defineAll at later ⊢
      simp only [List.foldlM_cons, bind_eq_ok_iff, define_eq_ok_iff, later, List.map_cons,
        List.nodup_cons, List.forall_mem_cons, List.reverse_cons, List.append_assoc,
        List.singleton_append]
      constructor
      · rintro ⟨_, ⟨unbound, rfl⟩, distinct, unboundLater, rfl⟩
        have absent : name ∉ definitions.map Prod.fst := by
          intro member
          have taken := unboundLater name member
          rw [get?_cons, if_pos rfl] at taken
          simp at taken
        refine ⟨⟨absent, distinct⟩, ⟨unbound, ?_⟩, rfl⟩
        intro other member
        have different : other ≠ name := by
          rintro rfl
          exact absent member
        have free := unboundLater other member
        rwa [get?_cons, if_neg different] at free
      · rintro ⟨⟨absent, distinct⟩, ⟨unbound, unboundLater⟩, rfl⟩
        refine ⟨_, ⟨unbound, rfl⟩, distinct, ?_, rfl⟩
        intro other member
        have different : other ≠ name := by
          rintro rfl
          exact absent member
        rw [get?_cons, if_neg different]
        exact unboundLater other member

/-- The first name that is defined again is reported, with the line of its first definition. -/
theorem defineAll_of_redefinition
    {before between after : List (Text × Symbol)}
    {name : Text}
    {first second : Symbol}
    (distinct : ((before ++ (name, first) :: between).map Prod.fst).Nodup) :
    empty.defineAll (before ++ (name, first) :: (between ++ (name, second) :: after)) =
      .error ⟨second.line, .duplicateLabel name first.line⟩ := by
  have defined :
      empty.defineAll (before ++ (name, first) :: between) =
        .ok ⟨(before ++ (name, first) :: between).reverse⟩ :=
    defineAll_eq_ok_iff.mpr ⟨distinct, fun _ _ => rfl, by simp [empty]⟩
  have bound :
      get? ⟨(before ++ (name, first) :: between).reverse⟩ name = some first :=
    (get?_reverse_eq_some_iff distinct).mpr (by simp)
  have shape :
      before ++ (name, first) :: (between ++ (name, second) :: after) =
        (before ++ (name, first) :: between) ++ (name, second) :: after := by
    simp
  rw [defineAll] at defined
  rw [shape, defineAll, List.foldlM_append, defined, ok_bind, List.foldlM_cons]
  simp only [define, bound]
  rfl

end SymbolTable

namespace Item

/-- The labels that items define, in order, where `index` statements stand before the items. -/
def definitions (index : Nat) : List Item → List (Text × Symbol)
  | [] => []
  | .label line name :: items => (name, ⟨index, line⟩) :: definitions index items
  | .statement .. :: items => definitions (index + 1) items

/-- Later items define their labels behind the statements of the earlier ones. -/
theorem definitions_append
    (index : Nat)
    (before after : List Item) :
    definitions index (before ++ after) =
      definitions index before ++ definitions (index + (statements before).length) after := by
  induction before generalizing index with
  | nil =>
      rfl
  | cons item before inductionHypothesis =>
      cases item with
      | label line name => exact congrArg (_ :: ·) (inductionHypothesis index)
      | statement line body =>
          have later := inductionHypothesis (index + 1)
          rw [Nat.add_assoc, Nat.add_comm 1] at later
          exact later

/-- A label is defined where it stands, with the number of the statements before it. -/
theorem mem_definitions_iff
    {index : Nat}
    {items : List Item}
    {name : Text}
    {symbol : Symbol} :
    (name, symbol) ∈ definitions index items ↔
      ∃ before after,
        items = before ++ .label symbol.line name :: after ∧
          symbol.index = index + (statements before).length := by
  constructor
  · induction items generalizing index with
    | nil =>
        simp [definitions]
    | cons item items inductionHypothesis =>
        intro member
        cases item with
        | label line label =>
            rcases List.mem_cons.mp member with same | later
            · obtain ⟨rfl, rfl⟩ := Prod.mk.inj same
              exact ⟨[], items, rfl, rfl⟩
            · obtain ⟨before, after, rfl, counted⟩ := inductionHypothesis later
              exact ⟨.label line label :: before, after, rfl, counted⟩
        | statement line body =>
            obtain ⟨before, after, rfl, counted⟩ := inductionHypothesis member
            refine ⟨.statement line body :: before, after, rfl, ?_⟩
            rw [counted]
            simp only [statements, List.filterMap_cons, List.length_cons]
            omega
  · rintro ⟨before, after, rfl, counted⟩
    obtain ⟨place, line⟩ := symbol
    obtain rfl : place = _ := counted
    simp [definitions_append, definitions]

/-- The names of the labels that items define, in order. -/
def definedNames (items : List Item) : List Text :=
  items.filterMap fun
    | .label _ name => some name
    | .statement .. => none

theorem map_fst_definitions
    (index : Nat)
    (items : List Item) :
    (definitions index items).map Prod.fst = definedNames items := by
  induction items generalizing index with
  | nil =>
      rfl
  | cons item items inductionHypothesis =>
      cases item with
      | label line name => exact congrArg (name :: ·) (inductionHypothesis index)
      | statement line body => exact inductionHypothesis (index + 1)

/-- The table of the labels that items define. -/
def symbols (items : List Item) : SymbolTable :=
  ⟨(definitions 0 items).reverse⟩

/-- Where no name is defined twice, a name stands for its definition among the items. -/
theorem get?_symbols_eq_some_iff
    {items : List Item}
    (distinct : (definedNames items).Nodup)
    {name : Text}
    {symbol : Symbol} :
    (symbols items).get? name = some symbol ↔
      ∃ before after,
        items = before ++ .label symbol.line name :: after ∧
          symbol.index = (statements before).length := by
  rw [← map_fst_definitions 0] at distinct
  rw [symbols, SymbolTable.get?_reverse_eq_some_iff distinct, mem_definitions_iff]
  simp only [Nat.zero_add]

end Item

namespace Assembly

/-- Collecting the symbols of items is defining their labels in order. -/
theorem collectSymbols_eq_defineAll
    (table : SymbolTable)
    (index : Nat)
    (items : List Item) :
    collectSymbols table index items = table.defineAll (Item.definitions index items) := by
  induction items generalizing table index with
  | nil =>
      rfl
  | cons item items inductionHypothesis =>
      cases item with
      | label line name =>
          rw [collectSymbols, Item.definitions, SymbolTable.defineAll, List.foldlM_cons]
          exact congrArg (table.define name ⟨index, line⟩ >>= ·)
            (funext fun extended => inductionHypothesis extended index)
      | statement line body =>
          exact inductionHypothesis table (index + 1)

/-- The first pass succeeds exactly if no name is defined twice, with the table of all labels. -/
theorem collectSymbols_eq_ok_iff
    {items : List Item}
    {table : SymbolTable} :
    collectSymbols .empty 0 items = .ok table ↔
      (Item.definedNames items).Nodup ∧ table = Item.symbols items := by
  have unbound :
      ∀ name ∈ (Item.definitions 0 items).map Prod.fst, SymbolTable.empty.get? name = none :=
    fun _ _ => rfl
  rw [collectSymbols_eq_defineAll, SymbolTable.defineAll_eq_ok_iff, Item.symbols,
    SymbolTable.empty, List.append_nil, ← Item.map_fst_definitions 0]
  exact and_congr_right fun _ => and_iff_right unbound

end Assembly

end TinyMips
