import TinyMips.Proofs.Assembly.Labels
import TinyMips.Proofs.Instruction.Printer
import TinyMips.Proofs.Program.Listing
import TinyMips.Proofs.Text.Bytes

namespace TinyMips

/-!
# The annotated disassembly

The disassembly of a program can be read back. Its rows are the instructions in order, with
their addresses and words, and before each of them the labels that name it. A label that
names the end of the program has no instruction after it and is left out.
-/

namespace Disassembly

/-- What a row of a disassembly says: a label, or an instruction and where it is. -/
inductive Entry where
  | label (name : Text)
  | instruction (address word : Word) (text : Text)
  deriving DecidableEq, Repr

namespace Entry

/-- The row of an entry, without the line feed after it. -/
def text : Entry → Text
  | label name => name ++ [':']
  | instruction address word text =>
      [' ', ' '] ++ (address.hex8 ++ ([':', ' ', ' '] ++ (word.hex8 ++ ([' ', ' '] ++ text))))

/-- The entry that a row holds: two spaces are before an instruction, a colon after a label. -/
def ofRow? (row : Text) : Option Entry :=
  match Text.dropPrefix? [' ', ' '] row with
  | none => (Text.dropSuffix? [':'] row).map label
  | some row => do
      let address ← Listing.word? (row.take 8)
      let row ← Text.dropPrefix? [':', ' ', ' '] (row.drop 8)
      let word ← Listing.word? (row.take 8)
      let text ← Text.dropPrefix? [' ', ' '] (row.drop 8)
      return instruction address word text

/-- The name of a label, or the text of an instruction, cannot be taken for anything else. -/
inductive IsPlain : Entry → Prop where
  | label
      {name : Text}
      (isIdentifier : Grammar.Identifier name) :
      IsPlain (label name)
  | instruction
      {address word : Word}
      {text : Text}
      (oneLine : text.IsOneLine) :
      IsPlain (instruction address word text)

/-- A plain entry is found again in its row. -/
theorem ofRow?_text
    {entry : Entry}
    (plain : entry.IsPlain) :
    ofRow? entry.text = some entry := by
  cases plain with
  | @label name isIdentifier =>
      obtain ⟨starts, goesOn⟩ := isIdentifier
      rename_i first rest
      have noSpace : first ≠ ' ' := Text.ne_of_class starts (by decide)
      have suffix : Text.dropSuffix? [':'] (first :: rest ++ [':']) = some (first :: rest) :=
        Text.dropSuffix?_eq_some_iff.mpr rfl
      rw [text, ofRow?, suffix]
      simp [Text.dropPrefix?, noSpace]
  | @instruction address word text oneLine =>
      have marked (start rest : Text) : Text.dropPrefix? start (start ++ rest) = some rest :=
        Text.dropPrefix?_eq_some_iff.mpr rfl
      have taken (word : Word) (rest : Text) : (word.hex8 ++ rest).take 8 = word.hex8 := by
        rw [← word.length_hex8, List.take_left]
      have dropped (word : Word) (rest : Text) : (word.hex8 ++ rest).drop 8 = rest := by
        rw [← word.length_hex8, List.drop_left]
      simp only [Entry.text, ofRow?, marked, taken, dropped, Listing.word?_hex8,
        Option.bind_eq_bind, Option.bind_some, Option.pure_def]

/-- A plain entry is one row. -/
theorem isOneLine_text
    {entry : Entry}
    (plain : entry.IsPlain) :
    entry.text.IsOneLine := by
  cases plain with
  | label isIdentifier =>
      obtain ⟨starts, goesOn⟩ := isIdentifier
      rename_i first rest
      have inside : Text.IsOneLine rest := fun c member =>
        ⟨Text.ne_of_class (goesOn c member) (by decide),
          Text.ne_of_class (goesOn c member) (by decide)⟩
      have first : first ≠ '\n' ∧ first ≠ '\r' :=
        ⟨Text.ne_of_class starts (by decide), Text.ne_of_class starts (by decide)⟩
      simp [text, inside, first]
  | instruction oneLine =>
      simp [text, oneLine, Word.hex8_isOneLine]

end Entry

/-- The entries of a disassembly. -/
def read (text : Text) : List Entry :=
  text.rows.filterMap Entry.ofRow?

/-- Plain entries are read back from their rows. -/
theorem read_rows
    {entries : List Entry}
    (plain : ∀ entry ∈ entries, entry.IsPlain) :
    read (entries.flatMap fun entry => entry.text ++ ['\n']) = entries := by
  have rows :
      Text.rows (entries.flatMap fun entry => entry.text ++ ['\n']) = entries.map Entry.text :=
    Text.rows_of_printed fun entry member => Entry.isOneLine_text (plain entry member)
  have found : ∀ entry ∈ entries, Entry.ofRow? entry.text = some entry :=
    fun entry member => Entry.ofRow?_text (plain entry member)
  rw [read, rows, List.filterMap_map]
  exact (List.filterMap_congr found).trans List.filterMap_some

/-! ## What entries say -/

/-- The instructions among entries: addresses, words and texts. -/
def instructions (entries : List Entry) : List (Nat × Word × Text) :=
  entries.filterMap fun
    | .label _ => none
    | .instruction address word text => some (address.toNat, word, text)

/-- The labels among entries, each with the number of instructions before it, from `index` on. -/
def labels (index : Nat) : List Entry → List (Nat × Text)
  | [] => []
  | .label name :: entries => (index, name) :: labels index entries
  | .instruction .. :: entries => labels (index + 1) entries

/-- Labels come by what they name, and by the bytes of their names where they share it. -/
def Precedes (first second : Nat × Text) : Prop :=
  first.1 < second.1 ∨ first.1 = second.1 ∧ first.2.bytes < second.2.bytes

/-- Labels in front of some entries are labels of the index that these begin with. -/
theorem labels_append
    (index : Nat)
    (names : List Text)
    (entries : List Entry) :
    labels index (names.map .label ++ entries) =
      names.map (index, ·) ++ labels index entries := by
  induction names with
  | nil => rfl
  | cons name names inductionHypothesis => exact congrArg ((index, name) :: ·) inductionHypothesis

/-! ## The entries of a program -/

/-- The entries of an instruction: its labels, and then itself. -/
def entriesAt
    (program : Program)
    (numbered : Instruction × Nat) :
    List Entry :=
  (program.symbols.labelsAt numbered.2).map .label
    ++ [.instruction (Word.ofIndex numbered.2) numbered.1.encode numbered.1.text]

/-- The entries of a program. -/
def entries (program : Program) : List Entry :=
  program.instructions.toList.zipIdx.flatMap (entriesAt program)

/-- A disassembly is the text of its entries, row by row. -/
theorem disassembly_eq
    (program : Program) :
    program.disassembly = (entries program).flatMap fun entry => entry.text ++ ['\n'] := by
  rw [entries, List.flatMap_assoc, Program.disassembly]
  congr 1
  funext ⟨instruction, index⟩
  simp [Program.annotated, entriesAt, Entry.text, List.flatMap_map]

/-- In a program with identifiers as labels nothing can be taken for anything else. -/
theorem isPlain_entries
    {program : Program}
    (labelled : program.IsLabelled) :
    ∀ entry ∈ entries program, entry.IsPlain := by
  intro entry member
  obtain ⟨⟨instruction, index⟩, _, inEntries⟩ := List.mem_flatMap.mp member
  rcases List.mem_append.mp inEntries with isLabel | isInstruction
  · obtain ⟨name, named, rfl⟩ := List.mem_map.mp isLabel
    obtain ⟨symbol, bound, _⟩ :=
      (SymbolTable.mem_labelsAt_iff_get? labelled.distinct).mp named
    exact .label (labelled.isIdentifier bound)
  · obtain rfl := List.mem_singleton.mp isInstruction
    exact .instruction instruction.text_isOneLine

/-- The instructions are listed in order, each with its address, its word and its text. -/
theorem instructions_entries
    {program : Program}
    (addressable : program.size < 0x40000000) :
    instructions (entries program) =
      program.instructions.toList.zipIdx.map fun (instruction, index) =>
        (4 * index, instruction.encode, instruction.text) := by
  have only : ∀ numbered ∈ program.instructions.toList.zipIdx,
      instructions (entriesAt program numbered) =
        [(4 * numbered.2, numbered.1.encode, numbered.1.text)] := by
    rintro ⟨instruction, index⟩ member
    have inside : index < program.size := by
      simpa [Program.size] using List.snd_lt_of_mem_zipIdx member
    have address := Word.toNat_ofIndex (inside.trans addressable)
    simp [instructions, entriesAt, address]
  rw [instructions, entries, List.filterMap_flatMap, List.map_eq_flatMap]
  exact List.flatMap_congr only

/-- The labels before instructions are those that name them, one instruction after the other. -/
theorem labels_flatMap_entriesAt
    (program : Program)
    (instructions : List Instruction)
    (start : Nat) :
    labels start ((instructions.zipIdx start).flatMap (entriesAt program)) =
      (List.range' start instructions.length).flatMap fun index =>
        (program.symbols.labelsAt index).map (index, ·) := by
  induction instructions generalizing start with
  | nil =>
      rfl
  | cons instruction instructions inductionHypothesis =>
      rw [List.zipIdx_cons, List.flatMap_cons, entriesAt, List.append_assoc, labels_append,
        List.length_cons, List.range'_succ, List.flatMap_cons]
      exact congrArg _ (inductionHypothesis (start + 1))

/-- The labels are listed index by index, as far as there are instructions. -/
theorem labels_entries
    (program : Program) :
    labels 0 (entries program) =
      (List.range' 0 program.size).flatMap fun index =>
        (program.symbols.labelsAt index).map (index, ·) := by
  rw [entries]
  exact labels_flatMap_entriesAt program program.instructions.toList 0

/-- A label is listed exactly if it is defined at the index of an instruction. -/
theorem mem_labels_entries_iff
    {program : Program}
    (labelled : program.IsLabelled)
    {index : Nat}
    {name : Text} :
    (index, name) ∈ labels 0 (entries program) ↔
      index < program.size ∧
        ∃ symbol, program.symbols.get? name = some symbol ∧ symbol.index = index := by
  rw [← SymbolTable.mem_labelsAt_iff_get? labelled.distinct, labels_entries]
  simp [List.mem_range'_1]

/-- The labels at increasing indices come in order. -/
theorem pairwise_flatMap_labelsAt
    {table : SymbolTable}
    (distinct : (table.entries.map Prod.fst).Nodup)
    {indices : List Nat}
    (increasing : indices.Pairwise (· < ·)) :
    (indices.flatMap fun index => (table.labelsAt index).map (index, ·)).Pairwise Precedes := by
  rw [List.pairwise_flatMap]
  constructor
  · intro index _
    refine List.pairwise_map.mpr ((SymbolTable.pairwise_labelsAt distinct index).imp ?_)
    intro first second less
    exact .inr ⟨rfl, Text.bytes_lt_iff.mpr less⟩
  · refine increasing.imp fun {first second} less => ?_
    intro earlier inFirst later inSecond
    obtain ⟨_, _, rfl⟩ := List.mem_map.mp inFirst
    obtain ⟨_, _, rfl⟩ := List.mem_map.mp inSecond
    exact .inl less

/-- No label comes twice, and those of one instruction are in the order of their names. -/
theorem pairwise_labels_entries
    {program : Program}
    (labelled : program.IsLabelled) :
    (labels 0 (entries program)).Pairwise Precedes := by
  rw [labels_entries]
  exact pairwise_flatMap_labelsAt labelled.distinct (List.pairwise_lt_range' 1)

/--
The disassembly of an assembled program is read back as its instructions in order, with
their addresses, words and texts, and as its labels, each of them once, between the
instructions before its index and the later ones, and in the order of their names. What is
missing are the labels at the end of the program, so all labels are there exactly if no
label is at the end.
-/
theorem lists_labels_and_instructions
    {source : Text}
    {program : Program}
    (assembled : assemble source = .ok program)
    (addressable : program.size < 0x40000000) :
    ∃ entries,
      read program.disassembly = entries ∧
        program.disassembly = (entries.flatMap fun entry => entry.text ++ ['\n']) ∧
        instructions entries =
          (program.instructions.toList.zipIdx.map fun (instruction, index) =>
            (4 * index, instruction.encode, instruction.text)) ∧
        (labels 0 entries).Pairwise Precedes ∧
        (∀ index name,
          (index, name) ∈ labels 0 entries ↔
            index < program.size ∧
              ∃ symbol, program.symbols.get? name = some symbol ∧ symbol.index = index) ∧
        (∀ name symbol,
          program.symbols.get? name = some symbol → symbol.index ≤ program.size) ∧
        ((∀ name symbol,
            program.symbols.get? name = some symbol →
              (symbol.index, name) ∈ labels 0 entries) ↔
          ∀ name symbol,
            program.symbols.get? name = some symbol → symbol.index ≠ program.size) := by
  have labelled := Program.isLabelled_of_assemble assembled
  have readBack : read program.disassembly = entries program := by
    rw [disassembly_eq, read_rows (isPlain_entries labelled)]
  have listed (index : Nat) (name : Text) :=
    @mem_labels_entries_iff program labelled index name
  refine ⟨entries program, readBack, disassembly_eq program,
    instructions_entries addressable, pairwise_labels_entries labelled, listed,
    fun name symbol => labelled.index_le, ?_⟩
  constructor
  · intro complete name symbol bound
    have inside := ((listed symbol.index name).mp (complete name symbol bound)).1
    omega
  · intro noneAtEnd name symbol bound
    have upper := labelled.index_le bound
    have notEnd := noneAtEnd name symbol bound
    exact (listed symbol.index name).mpr ⟨by omega, symbol, bound, rfl⟩

/-- A source whose two instructions have labels, the first one two of them. -/
def labelledSource : Text :=
  Text.ofString "start: main: addi $t0, $zero, 1\nloop: beq $zero, $zero, loop"

/-- The program of `labelledSource`. -/
def labelledProgram : Program where
  instructions := #[.addi ⟨8⟩ .zero 1, .beq .zero .zero 0xFFFF]
  symbols :=
    ⟨[(Text.ofString "loop", ⟨1, 2⟩), (Text.ofString "main", ⟨0, 1⟩),
      (Text.ofString "start", ⟨0, 1⟩)]⟩
  lines :=
    #[⟨1, Text.ofString "addi $t0, $zero, 1"⟩, ⟨2, Text.ofString "beq $zero, $zero, loop"⟩]

/-- Both instructions and all labels of `labelledSource` are found in its disassembly. -/
theorem labelledSource_is_read_back :
    assemble labelledSource = .ok labelledProgram ∧
      labelledProgram.size < 0x40000000 ∧
      instructions (read labelledProgram.disassembly) =
        [(0, 0x20080001, Text.ofString "addi $t0, $zero, 1"),
          (4, 0x1000FFFF, Text.ofString "beq $zero, $zero, -1")] ∧
      (0, Text.ofString "main") ∈ labels 0 (read labelledProgram.disassembly) ∧
      (0, Text.ofString "start") ∈ labels 0 (read labelledProgram.disassembly) ∧
      (1, Text.ofString "loop") ∈ labels 0 (read labelledProgram.disassembly) := by
  have assembled : assemble labelledSource = .ok labelledProgram := by
    decide +kernel
  have addressable : labelledProgram.size < 0x40000000 := by
    decide
  obtain ⟨_, rfl, _, listed, _, named, _, _⟩ :=
    lists_labels_and_instructions assembled addressable
  refine ⟨assembled, addressable, listed.trans (by decide +kernel), ?_, ?_, ?_⟩
  · exact (named _ _).mpr ⟨by decide, ⟨0, 1⟩, by decide +kernel, rfl⟩
  · exact (named _ _).mpr ⟨by decide, ⟨0, 1⟩, by decide +kernel, rfl⟩
  · exact (named _ _).mpr ⟨by decide, ⟨1, 2⟩, by decide +kernel, rfl⟩

/-- A source with a label at its end. -/
def endingSource : Text :=
  Text.ofString "beq $zero, $zero, end\nend:"

/-- The label at the end of `endingSource` is in its symbol table, but not in its disassembly. -/
theorem endingSource_loses_label :
    ∃ program,
      assemble endingSource = .ok program ∧
        program.size < 0x40000000 ∧
        program.symbols.get? (Text.ofString "end") = some ⟨1, 2⟩ ∧
        program.disassembly.rows =
          [Text.ofString "  00000000:  10000000  beq $zero, $zero, 0"] := by
  refine ⟨⟨#[.beq .zero .zero 0], ⟨[(Text.ofString "end", ⟨1, 2⟩)]⟩,
    #[⟨1, Text.ofString "beq $zero, $zero, end"⟩]⟩, ?_, ?_, ?_, ?_⟩
  · decide +kernel
  · decide
  · decide +kernel
  · decide +kernel

end Disassembly

end TinyMips
