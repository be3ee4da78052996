import TinyMips.Proofs.Program.Disassembly

namespace TinyMips.SymbolTable

/-!
# Symbol tables as dictionaries

A table that labels were defined in one after the other holds what the definitions that
succeeded say, and a definition succeeds exactly for a new name. What is looked up or
listed is decided by these definitions alone: neither the order in which the table keeps
its entries nor what a sort does with equal ones makes a difference, because no two entries
have the same name.
-/

/-- An attempt to define a label, and what became of it. -/
structure Attempt where
  name : Text
  symbol : Symbol
  outcome : Except AssemblyError Unit

/-- Try to define a label: what becomes of it, and the table that is left. -/
def attempt
    (table : SymbolTable)
    (name : Text)
    (symbol : Symbol) :
    Except AssemblyError Unit × SymbolTable :=
  match table.define name symbol with
  | .ok extended => (.ok (), extended)
  | .error error => (.error error, table)

/-- Try to define labels in order: all attempts, and the table that is left. -/
def attemptAll : List (Text × Symbol) → SymbolTable → List Attempt × SymbolTable
  | [], table => ([], table)
  | (name, symbol) :: definitions, table =>
      let (outcome, next) := table.attempt name symbol
      let (attempts, final) := attemptAll definitions next
      (⟨name, symbol, outcome⟩ :: attempts, final)

/-- The attempts are about the definitions, in their order. -/
theorem map_attemptAll
    (definitions : List (Text × Symbol))
    (table : SymbolTable) :
    (attemptAll definitions table).1.map (fun attempt => (attempt.name, attempt.symbol)) =
      definitions := by
  induction definitions generalizing table with
  | nil => rfl
  | cons definition definitions inductionHypothesis =>
      exact congrArg (definition :: ·)
        (inductionHypothesis (table.attempt definition.1 definition.2).2)

/-! ## Definitions by changes in turn -/

/-- Changes to a table in turn; what was changed before a failure stays changed. -/
abbrev Changes := TinyMips.Changes AssemblyError SymbolTable

/-- Look a label up in the table as it is, and enter it if it is not there. -/
def defineInTurn (name : Text) (symbol : Symbol) : Changes Unit := do
  match (← get).get? name with
  | some first => throw ⟨symbol.line, .duplicateLabel name first.line⟩
  | none => modify fun table => { table with entries := (name, symbol) :: table.entries }

/-- Define labels in place, each of them in the table that the ones before it have left. -/
def attemptAllInTurn : List (Text × Symbol) → StateM SymbolTable (List Attempt)
  | [] => return []
  | (name, symbol) :: definitions => do
      let outcome ← (defineInTurn name symbol).run
      return ⟨name, symbol, outcome⟩ :: (← attemptAllInTurn definitions)

/-- Defining in turn has the outcome of an attempt and leaves the table that it leaves. -/
theorem defineInTurn_run
    (table : SymbolTable)
    (name : Text)
    (symbol : Symbol) :
    (defineInTurn name symbol).run.run table = table.attempt name symbol := by
  simp only [defineInTurn, Changes.run_bind, Changes.run_get, attempt, define]
  cases table.get? name with
  | some first => rfl
  | none => rfl

/-- Definitions in turn, in one table, have the outcomes of `attemptAll`. -/
theorem attemptAllInTurn_run
    (definitions : List (Text × Symbol))
    (table : SymbolTable) :
    (attemptAllInTurn definitions).run table = attemptAll definitions table := by
  induction definitions generalizing table with
  | nil => rfl
  | cons definition definitions inductionHypothesis =>
      obtain ⟨name, symbol⟩ := definition
      have defined :
          (attemptAllInTurn ((name, symbol) :: definitions)).run table =
            let (outcome, next) := (defineInTurn name symbol).run.run table
            let (attempts, final) := (attemptAllInTurn definitions).run next
            (⟨name, symbol, outcome⟩ :: attempts, final) :=
        rfl
      rw [defined, defineInTurn_run]
      simp only [inductionHypothesis]
      rfl

/-- An attempt to define the name as the symbol has succeeded. -/
def Defined (attempts : List Attempt) (name : Text) (symbol : Symbol) : Prop :=
  ⟨name, symbol, .ok ()⟩ ∈ attempts

/-- The definitions that have succeeded, each of them once, in order of their labels. -/
structure Lists (attempts : List Attempt) (listing : List (Text × Symbol)) : Prop where
  mem_iff : ∀ name symbol, (name, symbol) ∈ listing ↔ Defined attempts name symbol
  once : (listing.map Prod.fst).Nodup
  ordered :
    listing.Pairwise fun first second =>
      Disassembly.Precedes (first.2.index, first.1) (second.2.index, second.1)

/-! ## What a table records -/

/-- A table holds the definitions that have succeeded, and no name has two entries. -/
structure Records (attempts : List Attempt) (table : SymbolTable) : Prop where
  distinct : (table.entries.map Prod.fst).Nodup
  mem_iff : ∀ name symbol, (name, symbol) ∈ table.entries ↔ Defined attempts name symbol

/-- The empty table records that nothing was attempted. -/
theorem records_empty : Records [] empty where
  distinct := by simp [empty]
  mem_iff := by simp [empty, Defined]

/-- A name is not found exactly if no entry has it. -/
theorem get?_eq_none_iff
    {entries : List (Text × Symbol)}
    {name : Text} :
    get? ⟨entries⟩ name = none ↔ name ∉ entries.map Prod.fst := by
  simp only [get?, List.lookup_eq_none_iff, List.mem_map, bne_iff_ne]
  constructor
  · rintro absent ⟨entry, member, rfl⟩
    exact absent entry member rfl
  · rintro absent entry member rfl
    exact absent ⟨entry, member, rfl⟩

/-- A name that is not bound is added, with what it stands for. -/
theorem attempt_of_unbound
    {table : SymbolTable}
    {name : Text}
    (unbound : table.get? name = none)
    (symbol : Symbol) :
    table.attempt name symbol = (.ok (), ⟨(name, symbol) :: table.entries⟩) := by
  rw [attempt, define, unbound]

/-- A name that is bound is refused, and the line of its first definition is reported. -/
theorem attempt_of_bound
    {table : SymbolTable}
    {name : Text}
    {first : Symbol}
    (bound : table.get? name = some first)
    (symbol : Symbol) :
    table.attempt name symbol = (.error ⟨symbol.line, .duplicateLabel name first.line⟩, table) := by
  rw [attempt, define, bound]

namespace Records

variable {attempts : List Attempt} {table : SymbolTable}

/-- A name is found exactly with what it was first defined as. -/
theorem get?_eq_some_iff
    (records : Records attempts table)
    {name : Text}
    {symbol : Symbol} :
    table.get? name = some symbol ↔ Defined attempts name symbol :=
  (SymbolTable.get?_eq_some_iff records.distinct).trans (records.mem_iff name symbol)

/-- An attempt adds a new name to the table, and leaves it as it is otherwise. -/
theorem attempt
    (records : Records attempts table)
    (name : Text)
    (symbol : Symbol) :
    Records (attempts ++ [⟨name, symbol, (table.attempt name symbol).1⟩])
      (table.attempt name symbol).2 := by
  cases bound : table.get? name with
  | none =>
      rw [attempt_of_unbound bound]
      constructor
      · exact List.nodup_cons.mpr ⟨get?_eq_none_iff.mp bound, records.distinct⟩
      · intro other otherSymbol
        simp [Defined, records.mem_iff, or_comm]
  | some first =>
      rw [attempt_of_bound bound]
      constructor
      · exact records.distinct
      · intro other otherSymbol
        simp [Defined, records.mem_iff]

/-- A table records all attempts at definitions in it. -/
theorem attemptAll
    (records : Records attempts table)
    (definitions : List (Text × Symbol)) :
    Records (attempts ++ (SymbolTable.attemptAll definitions table).1)
      (SymbolTable.attemptAll definitions table).2 := by
  induction definitions generalizing attempts table with
  | nil =>
      rwa [SymbolTable.attemptAll, List.append_nil]
  | cons definition definitions inductionHypothesis =>
      have later := inductionHypothesis (records.attempt definition.1 definition.2)
      rwa [List.append_assoc] at later

/-- An attempt fails exactly for a name that was defined, with the line of that definition. -/
theorem attempt_eq_error_iff
    (records : Records attempts table)
    {name : Text}
    {symbol : Symbol}
    {error : AssemblyError} :
    (table.attempt name symbol).1 = .error error ↔
      ∃ first,
        Defined attempts name first ∧ error = ⟨symbol.line, .duplicateLabel name first.line⟩ := by
  simp only [← records.get?_eq_some_iff]
  cases bound : table.get? name with
  | none => simp [attempt_of_unbound bound]
  | some first => simp [attempt_of_bound bound, eq_comm (a := error)]

end Records

/-- A refused definition changes nothing. -/
theorem attempt_of_failure
    {table : SymbolTable}
    {name : Text}
    {symbol : Symbol}
    {error : AssemblyError}
    (failed : (table.attempt name symbol).1 = .error error) :
    (table.attempt name symbol).2 = table := by
  cases bound : table.get? name with
  | none => simp [attempt_of_unbound bound] at failed
  | some first => rw [attempt_of_bound bound]

/-! ## Listings -/

/-- Entries are in the order of their indices, and of their names where these are the same. -/
theorem entryLe_iff
    {first second : Text × Symbol} :
    entryLe first second = true ↔
      first.2.index < second.2.index ∨
        first.2.index = second.2.index ∧ first.1 ≤ second.1 := by
  by_cases same : first.2.index = second.2.index
  · simp [entryLe, same, nameLe_iff]
  · simp [entryLe, same]

/-- Sorting neither loses an entry nor adds one. -/
theorem sorted_perm (table : SymbolTable) : table.sorted.Perm table.entries :=
  List.mergeSort_perm table.entries entryLe

/-- Sorted entries are in order. -/
theorem pairwise_sorted (table : SymbolTable) :
    table.sorted.Pairwise fun first second => entryLe first second = true := by
  refine List.pairwise_mergeSort ?_ ?_ table.entries
  · intro first second third
    simp only [entryLe_iff]
    rintro (before | ⟨same, le⟩) (later | ⟨sameLater, leLater⟩)
    · exact .inl (before.trans later)
    · exact .inl (sameLater ▸ before)
    · exact .inl (same ▸ later)
    · exact .inr ⟨same.trans sameLater, le.trans leLater⟩
  · intro first second
    simp only [Bool.or_eq_true, entryLe_iff]
    rcases lt_trichotomy first.2.index second.2.index with before | same | after
    · exact .inl (.inl before)
    · exact (le_total first.1 second.1).imp (fun le => .inr ⟨same, le⟩) fun le => .inr ⟨same.symm, le⟩
    · exact .inr (.inl after)

/-- Where no name has two entries, entries that come before each other are the same. -/
theorem eq_of_entryLe
    {entries : List (Text × Symbol)}
    (distinct : (entries.map Prod.fst).Nodup)
    {first second : Text × Symbol}
    (firstMember : first ∈ entries)
    (secondMember : second ∈ entries)
    (forward : entryLe first second = true)
    (backward : entryLe second first = true) :
    first = second := by
  have sameName : first.1 = second.1 := by
    rw [entryLe_iff] at forward backward
    rcases forward with before | ⟨_, le⟩ <;> rcases backward with after | ⟨_, ge⟩
    · omega
    · omega
    · omega
    · exact le_antisymm le ge
  exact List.inj_on_of_nodup_map distinct firstMember secondMember sameName

/-- Whatever a sort does with equal entries, there is one list it can make of them. -/
theorem sorts_entries_iff
    {table : SymbolTable}
    (distinct : (table.entries.map Prod.fst).Nodup)
    {listing : List (Text × Symbol)} :
    (listing.Perm table.entries ∧
        listing.Pairwise fun first second => entryLe first second = true) ↔
      listing = table.sorted := by
  constructor
  · rintro ⟨reordered, ordered⟩
    refine List.Perm.eq_of_pairwise (fun first second inListing inSorted => ?_) ordered
      table.pairwise_sorted (reordered.trans table.sorted_perm.symm)
    exact eq_of_entryLe distinct (reordered.mem_iff.mp inListing)
      (table.sorted_perm.mem_iff.mp inSorted)
  · rintro rfl
    exact ⟨table.sorted_perm, table.pairwise_sorted⟩

/-- The labels at an index are the only list of these names that is in order. -/
theorem sorts_names_iff
    {table : SymbolTable}
    {index : Nat}
    {names : List Text} :
    (names.Perm ((table.entries.filter fun entry => entry.2.index = index).map Prod.fst) ∧
        names.Pairwise fun first second => nameLe first second = true) ↔
      names = table.labelsAt index := by
  constructor
  · rintro ⟨reordered, ordered⟩
    refine List.Perm.eq_of_pairwise (fun first second _ _ forward backward => ?_) ordered
      (table.pairwise_nameLe_labelsAt index) (reordered.trans (List.mergeSort_perm _ _).symm)
    exact le_antisymm (nameLe_iff.mp forward) (nameLe_iff.mp backward)
  · rintro rfl
    exact ⟨List.mergeSort_perm _ _, table.pairwise_nameLe_labelsAt index⟩

/-- Of two labels at most one comes before the other. -/
theorem not_precedes_of_precedes
    {first second : Nat × Text}
    (forward : Disassembly.Precedes first second) :
    ¬Disassembly.Precedes second first := by
  rintro (after | ⟨same, later⟩)
  · rcases forward with before | ⟨same, _⟩
    · exact Nat.lt_asymm before after
    · exact Nat.ne_of_lt after same.symm
  · rcases forward with before | ⟨_, earlier⟩
    · exact Nat.ne_of_gt before same
    · exact List.lt_asymm earlier later

/-- Two lists in strict order that have the same elements are the same. -/
theorem eq_of_pairwise_precedes
    {α : Type}
    {key : α → Nat × Text}
    {first second : List α}
    (firstOrdered : first.Pairwise fun before after => Disassembly.Precedes (key before) (key after))
    (secondOrdered :
      second.Pairwise fun before after => Disassembly.Precedes (key before) (key after))
    (same : ∀ item, item ∈ first ↔ item ∈ second) :
    first = second := by
  have distinct
      {items : List α}
      (ordered :
        items.Pairwise fun before after => Disassembly.Precedes (key before) (key after)) :
      items.Nodup := by
    refine ordered.imp fun precedes same => ?_
    subst same
    exact not_precedes_of_precedes precedes precedes
  refine List.Perm.eq_of_pairwise
    (fun _ _ _ _ forward backward => absurd backward (not_precedes_of_precedes forward))
    firstOrdered secondOrdered ?_
  exact (List.perm_ext_iff_of_nodup (distinct firstOrdered) (distinct secondOrdered)).mpr same

/-- The definitions that have succeeded have one listing. -/
theorem Lists.unique
    {attempts : List Attempt}
    {first second : List (Text × Symbol)}
    (firstLists : Lists attempts first)
    (secondLists : Lists attempts second) :
    first = second :=
  eq_of_pairwise_precedes firstLists.ordered secondLists.ordered fun (name, symbol) =>
    (firstLists.mem_iff name symbol).trans (secondLists.mem_iff name symbol).symm

namespace Records

variable {attempts : List Attempt} {table : SymbolTable}

/-- The sorted entries are the definitions that succeeded. -/
theorem mem_sorted_iff
    (records : Records attempts table)
    {name : Text}
    {symbol : Symbol} :
    (name, symbol) ∈ table.sorted ↔ Defined attempts name symbol :=
  List.mem_mergeSort.trans (records.mem_iff name symbol)

theorem nodup_sorted (records : Records attempts table) : (table.sorted.map Prod.fst).Nodup :=
  (table.sorted_perm.map Prod.fst).nodup_iff.mpr records.distinct

/-- The sorted entries list what was defined. -/
theorem lists_sorted (records : Records attempts table) : Lists attempts table.sorted where
  mem_iff _ _ := records.mem_sorted_iff
  once := records.nodup_sorted
  ordered := by
    refine table.pairwise_sorted.imp₂ (fun first second le different => ?_)
      (List.pairwise_map.mp records.nodup_sorted)
    rcases entryLe_iff.mp le with before | ⟨same, nameLe⟩
    · exact .inl before
    · exact .inr ⟨same, Text.bytes_lt_iff.mpr (lt_of_le_of_ne nameLe different)⟩

/-- The labels at one index after the other are those of the listing, in order. -/
theorem flatMap_labelsAt
    (records : Records attempts table)
    {bound : Nat}
    (bounded : ∀ name symbol, Defined attempts name symbol → symbol.index ≤ bound) :
    ((List.range (bound + 1)).flatMap fun index => (table.labelsAt index).map (index, ·)) =
      table.sorted.map fun (name, symbol) => (symbol.index, name) := by
  refine @eq_of_pairwise_precedes _ id _ _
    (Disassembly.pairwise_flatMap_labelsAt records.distinct List.pairwise_lt_range)
    (List.pairwise_map.mpr records.lists_sorted.ordered) fun (index, name) => ?_
  simp only [List.mem_flatMap, List.mem_range, List.mem_map, Prod.mk.injEq, Prod.exists,
    mem_labelsAt_iff, records.mem_iff, records.mem_sorted_iff]
  constructor
  · rintro ⟨place, _, label, ⟨symbol, defined, rfl⟩, rfl, rfl⟩
    exact ⟨label, symbol, defined, rfl, rfl⟩
  · rintro ⟨label, symbol, defined, rfl, rfl⟩
    have inside := bounded label symbol defined
    exact ⟨symbol.index, by omega, label, ⟨symbol, defined, rfl⟩, rfl, rfl⟩

/-- The labels of all indices, one after the other, are the sorted names. -/
theorem map_labelsAt
    (records : Records attempts table)
    {bound : Nat}
    (bounded : ∀ name symbol, Defined attempts name symbol → symbol.index ≤ bound) :
    (List.range (bound + 1)).flatMap table.labelsAt = table.sorted.map Prod.fst := by
  have names := congrArg (List.map Prod.snd) (records.flatMap_labelsAt bounded)
  simpa [List.map_flatMap, Function.comp_def] using names

end Records

/--
After any attempts at definitions in an empty table, the table is a dictionary of those
that succeeded. A definition fails exactly if its name is that of an earlier one that
succeeded, byte for byte, and then reports the line of that one and leaves the table as it
is. What is looked up is the definition that succeeded. The sorted labels are the one list
of these definitions in the order of their indices and of the bytes of their names, so
neither the order of the entries nor that of the attempts plays a role, and they are what
the labels at one index after the other make up. The table may just as well be changed in
place: a label is entered only once it is known to be new.
-/
theorem is_dictionary
    (definitions : List (Text × Symbol)) :
    ∃ attempts table,
      attemptAll definitions empty = (attempts, table) ∧
        (attemptAllInTurn definitions).run empty = (attempts, table) ∧
        (∀ name symbol, (defineInTurn name symbol).run.run table = table.attempt name symbol) ∧
        attempts.map (fun attempt => (attempt.name, attempt.symbol)) = definitions ∧
        (∀ name symbol error,
          (table.attempt name symbol).1 = .error error ↔
            ∃ other first,
              Defined attempts other first ∧ other.bytes = name.bytes ∧
                error = ⟨symbol.line, .duplicateLabel name first.line⟩) ∧
        (∀ name symbol error,
          (table.attempt name symbol).1 = .error error → (table.attempt name symbol).2 = table) ∧
        (∀ name symbol, table.get? name = some symbol ↔ Defined attempts name symbol) ∧
        (∀ listing, Lists attempts listing ↔ listing = table.sorted) ∧
        (∀ entries,
          entries.Perm table.entries →
            (∀ listing,
              (listing.Perm entries ∧
                  listing.Pairwise fun first second => entryLe first second = true) ↔
                listing = table.sorted) ∧
            ∀ index names,
              (names.Perm ((entries.filter fun entry => entry.2.index = index).map Prod.fst) ∧
                  names.Pairwise fun first second => nameLe first second = true) ↔
                names = table.labelsAt index) ∧
        ∀ bound,
          (∀ name symbol, Defined attempts name symbol → symbol.index ≤ bound) →
            (List.range (bound + 1)).flatMap table.labelsAt = table.sorted.map Prod.fst := by
  have records := records_empty.attemptAll definitions
  rw [List.nil_append] at records
  refine ⟨_, _, rfl, attemptAllInTurn_run definitions empty, defineInTurn_run _,
    map_attemptAll definitions empty, ?_, fun _ _ _ => attempt_of_failure,
    fun _ _ => records.get?_eq_some_iff, fun listing => ⟨fun lists => ?_, ?_⟩, ?_,
    fun _ => records.map_labelsAt⟩
  · intro name symbol error
    simp only [records.attempt_eq_error_iff, Text.bytes_inj]
    constructor
    · rintro ⟨first, defined, reported⟩
      exact ⟨name, first, defined, rfl, reported⟩
    · rintro ⟨_, first, defined, rfl, reported⟩
      exact ⟨first, defined, reported⟩
  · exact lists.unique records.lists_sorted
  · rintro rfl
    exact records.lists_sorted
  · intro entries reordered
    constructor
    · intro listing
      rw [← sorts_entries_iff records.distinct]
      exact and_congr_left' (reordered.congr_right listing)
    · intro index names
      have sameNames := (reordered.filter fun entry => entry.2.index = index).map Prod.fst
      rw [← sorts_names_iff]
      exact and_congr_left' (sameNames.congr_right names)

end TinyMips.SymbolTable
