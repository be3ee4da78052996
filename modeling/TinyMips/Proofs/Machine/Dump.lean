import TinyMips.Proofs.Machine.Sound
import TinyMips.Proofs.Program.Listing
import TinyMips.Proofs.Register.Name

namespace TinyMips

/-!
# The printed state

The printed state of a machine can be read back, row by row: the program counter, the
registers in eight rows of four, and the words of memory that are not zero. So machines
with the same printed state have the same program counter, registers and such words.
-/

namespace Dump

/-- What a row of the printed state says. -/
inductive Entry where
  | pc (value : Word)
  | registers (row : List (Reg × Word))
  | memory (address : Nat) (value : Word)
  deriving DecidableEq, Repr

theorem isOneLine_address (word : Word) : word.address.IsOneLine :=
  Text.isOneLine_cons_iff.mpr
    ⟨by decide, Text.isOneLine_cons_iff.mpr ⟨by decide, word.hex8_isOneLine⟩⟩

/-! ## Columns of registers -/

/-- The name of a register in the table, padded. -/
def label (reg : Reg) : Text :=
  '$' :: Text.padRight 4 reg.name

/-- One column of the table: a register and its value, and the blanks before the next column. -/
def columnText (shown : Reg × Word) : Text :=
  label shown.1 ++ '=' :: shown.2.address ++ [' ', ' ']

/-- The registers in the given number of columns, all of the same width. -/
def columns? : Nat → Text → Option (List (Reg × Word))
  | 0, _ => some []
  | count + 1, row => do
      let reg ← Reg.lookup? (Text.trimEnd (row.take 5))
      let value ← Text.dropPrefix? ['='] ((row.drop 5).take 11)
      let value ← Listing.word? value
      let later ← columns? count (row.drop 18)
      return (reg, value) :: later

/-- All registers are labelled with the same width. -/
theorem length_label : ∀ reg, (label reg).length = 5 := by
  decide +kernel

/-- A register is found again under its label. -/
theorem lookup?_label : ∀ reg, Reg.lookup? (label reg).trimEnd = some reg := by
  decide +kernel

theorem isOneLine_label : ∀ reg, (label reg).IsOneLine := by
  decide +kernel

theorem isOneLine_columnText (shown : Reg × Word) : (columnText shown).IsOneLine := by
  simp [columnText, isOneLine_label, isOneLine_address]

/-- Columns are read one after the other, as each of them has the same width. -/
theorem columns?_flatMap (row : List (Reg × Word)) :
    columns? row.length (row.flatMap columnText) = some row := by
  induction row with
  | nil =>
      rfl
  | cons shown row inductionHypothesis =>
      obtain ⟨reg, value⟩ := shown
      have width : ('=' :: value.address).length = 11 := congrArg (· + 3) value.length_hex8
      have shape :
          ((reg, value) :: row).flatMap columnText =
            label reg ++ ('=' :: value.address ++ ([' ', ' '] ++ row.flatMap columnText)) := by
        simp [columnText]
      have named : (((reg, value) :: row).flatMap columnText).take 5 = label reg := by
        rw [shape, List.take_left' (length_label reg)]
      have valued :
          ((((reg, value) :: row).flatMap columnText).drop 5).take 11 = '=' :: value.address := by
        rw [shape, List.drop_left' (length_label reg), List.take_left' width]
      have later : (((reg, value) :: row).flatMap columnText).drop 18 = row.flatMap columnText := by
        have columnWidth : (columnText (reg, value)).length = 18 := by
          simp only [columnText, List.length_append, length_label, width]
          rfl
        exact List.drop_left' columnWidth
      rw [List.length_cons, columns?, named, valued, later, lookup?_label, inductionHypothesis]
      simp [Text.dropPrefix?, Listing.word?_address]

/-- The blanks after the last column are all that is trimmed. -/
theorem trimEnd_flatMap_columnText
    {row : List (Reg × Word)}
    (nonempty : row ≠ []) :
    Text.trimEnd (row.flatMap columnText) ++ [' ', ' '] = row.flatMap columnText := by
  obtain ⟨before, ⟨reg, value⟩, rfl⟩ := (List.eq_nil_or_concat' row).resolve_left nonempty
  obtain ⟨digits, last, shape⟩ := (List.eq_nil_or_concat' value.hex8).resolve_left
    (Numeral.hex_ne_nil 8 value.toNat)
  have notWhite : Text.isWhiteSpace last = false := by
    have every : ∀ c ∈ value.hex8, Text.isWhiteSpace c = false :=
      Numeral.forall_mem_hex (by decide)
    exact every last (by simp [shape])
  have ended :
      (before ++ [(reg, value)]).flatMap columnText =
        before.flatMap columnText ++ (label reg ++ '=' :: '0' :: 'x' :: digits) ++ [last] ++
          [' ', ' '] := by
    have address : value.address = '0' :: 'x' :: (digits ++ [last]) := by
      rw [← shape]
      rfl
    simp [columnText, address]
  rw [ended, Text.trimEnd_append_white _ (by decide), Text.trimEnd]
  simp [notWhite]

/-! ## Entries in rows -/

/-- A number as `0x` and hexadecimal digits. -/
def number? (text : Text) : Option Nat := do
  let digits ← Numeral.hexBody? text
  if Numeral.isHexadecimal digits then some (Numeral.value 16 digits) else none

/-- A prefixed hexadecimal number is read back. -/
theorem number?_prefixedHex (width n : Nat) : number? (Numeral.prefixedHex width n) = some n := by
  have digits : Numeral.hexBody? (Numeral.prefixedHex width n) = some (Numeral.hex width n) := rfl
  simp [number?, digits, Numeral.isHexadecimal_hex, Numeral.value_hex]

namespace Entry

/-- The row of an entry, without the line feed after it. -/
def text : Entry → Text
  | pc value => Text.ofString "pc = " ++ value.address
  | registers row => Text.trimEnd (row.flatMap columnText)
  | memory address value =>
      Text.ofString "mem[" ++ (Numeral.prefixedHex 4 address ++
        (Text.ofString "] = " ++ value.address))

/-- The entry that a row holds; the blanks after the last column are put back. -/
def ofRow? (row : Text) : Option Entry :=
  match Text.dropPrefix? (Text.ofString "mem[") row with
  | some row => do
      let address ← number? (row.takeWhile (· ≠ ']'))
      let value ← Text.dropPrefix? (Text.ofString "] = ") (row.dropWhile (· ≠ ']'))
      return memory address (← Listing.word? value)
  | none =>
      match Text.dropPrefix? (Text.ofString "pc = ") row with
      | some value => (Listing.word? value).map pc
      | none => (columns? 4 (row ++ [' ', ' '])).map registers

/-- An entry of registers is a full row. -/
inductive IsWhole : Entry → Prop where
  | pc (value : Word) :
      IsWhole (pc value)
  | registers
      {row : List (Reg × Word)}
      (four : row.length = 4) :
      IsWhole (registers row)
  | memory (address : Nat) (value : Word) :
      IsWhole (memory address value)

/-- An entry is found again in its row. -/
theorem ofRow?_text
    {entry : Entry}
    (whole : entry.IsWhole) :
    ofRow? entry.text = some entry := by
  have marked (start rest : Text) : Text.dropPrefix? start (start ++ rest) = some rest :=
    Text.dropPrefix?_eq_some_iff.mpr rfl
  cases whole with
  | pc value =>
      have notMemory :
          Text.dropPrefix? (Text.ofString "mem[") (Text.ofString "pc = " ++ value.address) =
            none := by
        rfl
      simp only [text, ofRow?, notMemory, marked, Listing.word?_address, Option.map_some]
  | @registers row four =>
      have nonempty : row ≠ [] := by
        rintro rfl
        simp at four
      have untrimmed := trimEnd_flatMap_columnText nonempty
      have readBack :
          columns? 4 (Text.trimEnd (row.flatMap columnText) ++ [' ', ' ']) = some row := by
        rw [untrimmed, ← four, columns?_flatMap]
      obtain ⟨shown, later, rfl⟩ := List.exists_cons_of_ne_nil nonempty
      rw [text, ofRow?]
      generalize Text.trimEnd ((shown :: later).flatMap columnText) = row at untrimmed readBack
      cases row with
      | nil =>
          exact absurd (List.cons.inj untrimmed).1 (by decide)
      | cons c row =>
          obtain rfl : c = '$' := (List.cons.inj untrimmed).1
          have notOther :
              Text.dropPrefix? (Text.ofString "mem[") ('$' :: row) = none ∧
                Text.dropPrefix? (Text.ofString "pc = ") ('$' :: row) = none :=
            ⟨rfl, rfl⟩
          rw [notOther.1, notOther.2]
          simp only [readBack, Option.map_some]
  | memory address value =>
      have digits : ∀ c ∈ Numeral.prefixedHex 4 address, decide (c ≠ ']') = true := by
        have every : ∀ c ∈ Numeral.hex 4 address, decide (c ≠ ']') = true :=
          Numeral.forall_mem_hex (by decide)
        simpa [Numeral.prefixedHex] using every
      have before (rest : Text) :
          (Numeral.prefixedHex 4 address ++ (Text.ofString "] = " ++ rest)).takeWhile (· ≠ ']') =
            Numeral.prefixedHex 4 address := by
        rw [List.takeWhile_append_of_pos digits]
        exact List.append_nil _
      have after (rest : Text) :
          (Numeral.prefixedHex 4 address ++ (Text.ofString "] = " ++ rest)).dropWhile (· ≠ ']') =
            Text.ofString "] = " ++ rest := by
        rw [List.dropWhile_append_of_pos digits]
        rfl
      simp only [text, ofRow?, marked, before, after, number?_prefixedHex, Listing.word?_address,
        Option.bind_eq_bind, Option.bind_some, Option.pure_def]

/-- Every entry of a dump is one row. -/
theorem isOneLine_text (entry : Entry) : entry.text.IsOneLine := by
  cases entry with
  | pc value =>
      rw [text, Text.isOneLine_append_iff]
      exact ⟨by decide, isOneLine_address value⟩
  | registers row =>
      have oneLine : Text.IsOneLine (row.flatMap columnText) := by
        intro c member
        obtain ⟨shown, _, inside⟩ := List.mem_flatMap.mp member
        exact isOneLine_columnText shown c inside
      obtain ⟨white, _, shape⟩ := Text.exists_trimEnd_white (row.flatMap columnText)
      rw [shape, Text.isOneLine_append_iff] at oneLine
      exact oneLine.1
  | memory address value =>
      have digits : (Numeral.hex 4 address).IsOneLine := Numeral.forall_mem_hex (by decide)
      simp only [text, Text.isOneLine_append_iff, Numeral.prefixedHex, Text.isOneLine_cons_iff]
      exact ⟨by decide, ⟨by decide, by decide, digits⟩, by decide, isOneLine_address value⟩

end Entry

/-- The entries of a printed state; a row that cannot be read has none. -/
def read (text : Text) : List (Option Entry) :=
  text.rows.map Entry.ofRow?

/-! ## The entries of a machine -/

/-- The rows of the table, given the values of the registers. -/
def table (value : Reg → Word) : List Entry :=
  (RegisterFile.inFours Reg.all).map fun row => .registers (row.map fun reg => (reg, value reg))

/-- The entries of a machine. -/
def entries (machine : Machine) : List Entry :=
  .pc machine.pc ::
    (table machine.registers.read ++
      machine.memory.nonzero.map fun (index, word) => .memory (4 * index) word)

/-- The table of registers is printed in rows of four columns. -/
theorem flatMap_table (value : Reg → Word) :
    ((table value).flatMap fun entry => entry.text ++ ['\n']) =
      (RegisterFile.inFours Reg.all).flatMap fun row =>
        Text.trimEnd (row.flatMap fun reg => columnText (reg, value reg)) ++ ['\n'] := by
  simp [table, List.flatMap_map, Entry.text]

/-- A dump is the text of its entries, row by row. -/
theorem dump_eq (machine : Machine) :
    machine.dump = (entries machine).flatMap fun entry => entry.text ++ ['\n'] := by
  have words :
      ((machine.memory.nonzero.map fun (index, word) => Entry.memory (4 * index) word).flatMap
          fun entry => entry.text ++ ['\n']) =
        machine.memory.nonzero.flatMap fun (index, word) => Machine.memoryLine index word := by
    simp [List.flatMap_map, Entry.text, Machine.memoryLine]
  rw [entries, List.flatMap_cons, List.flatMap_append, flatMap_table, words, Machine.dump]
  simp only [List.append_assoc]
  rfl

theorem isWhole_of_mem_table
    {value : Reg → Word}
    {entry : Entry}
    (member : entry ∈ table value) :
    entry.IsWhole := by
  have fours : ∀ row ∈ RegisterFile.inFours Reg.all, row.length = 4 := by
    decide +kernel
  obtain ⟨row, inTable, rfl⟩ := List.mem_map.mp member
  exact .registers ((List.length_map _).trans (fours row inTable))

/-- The entries of a dump are whole. -/
theorem isWhole_of_mem_entries
    {machine : Machine}
    {entry : Entry}
    (member : entry ∈ entries machine) :
    entry.IsWhole := by
  rcases List.mem_cons.mp member with rfl | later
  · exact .pc machine.pc
  · rcases List.mem_append.mp later with inTable | isWord
    · exact isWhole_of_mem_table inTable
    · obtain ⟨⟨index, word⟩, _, rfl⟩ := List.mem_map.mp isWord
      exact .memory (4 * index) word

/-- The rows of a dump are its entries. -/
theorem rows_dump (machine : Machine) :
    machine.dump.rows = (entries machine).map Entry.text := by
  rw [dump_eq]
  exact Text.rows_of_printed fun entry _ => entry.isOneLine_text

/-- Every row of the printed state is read back. -/
theorem read_dump (machine : Machine) : read machine.dump = (entries machine).map some := by
  rw [read, rows_dump, List.map_map]
  exact List.map_congr_left fun entry member => Entry.ofRow?_text (isWhole_of_mem_entries member)

/-! ## What the printed state decides -/

/-- A table shows the value of every register. -/
theorem table_inj
    {value other : Reg → Word} :
    table value = table other ↔ value = other := by
  constructor
  · intro same
    funext reg
    have listed : ∀ reg, ∃ row ∈ RegisterFile.inFours Reg.all, reg ∈ row := by
      decide +kernel
    obtain ⟨row, inTable, inRow⟩ := listed reg
    have sameRow := Entry.registers.inj (List.map_inj_left.mp same row inTable)
    exact (Prod.mk.inj (List.map_inj_left.mp sameRow reg inRow)).2
  · rintro rfl
    rfl

/-- Machines with the same printed state agree in all that is printed. -/
theorem eq_of_dump_eq
    {machine other : Machine}
    (same : machine.dump = other.dump) :
    machine.pc = other.pc ∧
      machine.registers.read = other.registers.read ∧
      machine.memory.nonzero = other.memory.nonzero := by
  have sameRead : (entries machine).map some = (entries other).map some := by
    rw [← read_dump, ← read_dump, same]
  have sameEntries : entries machine = entries other :=
    List.map_injective_iff.mpr (fun _ _ => Option.some.inj) sameRead
  obtain ⟨samePc, later⟩ := List.cons.inj sameEntries
  obtain ⟨sameTable, sameWords⟩ := List.append_inj later (by simp [table])
  refine ⟨Entry.pc.inj samePc, table_inj.mp sameTable, ?_⟩
  refine List.map_injective_iff.mpr ?_ sameWords
  rintro ⟨index, word⟩ ⟨otherIndex, otherWord⟩ sameWord
  obtain ⟨sameAddress, rfl⟩ := Entry.memory.inj sameWord
  obtain rfl : index = otherIndex := by omega
  rfl

end Dump

namespace Memory

/-! ## Words that are not zero -/

/-- The nonzero words are listed with their indices, all of them and no others. -/
theorem mem_nonzero_iff
    {memory : Memory}
    {index : Nat}
    {value : Word} :
    (index, value) ∈ memory.nonzero ↔ value ≠ 0 ∧ memory.word index = value := by
  have listed :
      (index, value) ∈ memory.nonzero ↔ memory.cells[index]? = some value ∧ value ≠ 0 := by
    simp [nonzero, List.mem_zipIdx_iff_getElem?]
  rw [listed, word, Array.getD_eq_getD_getElem?]
  cases memory.cells[index]? with
  | none => simpa using fun nonzero => Ne.symm nonzero
  | some cell => simp [and_comm]

/-- The words that are not zero come in the order of their indices. -/
theorem pairwise_nonzero (memory : Memory) :
    memory.nonzero.Pairwise fun first second => first.1 < second.1 := by
  exact List.pairwise_map.mpr ((pairwise_zipIdx memory.cells.toList 0).filter _)

/-- The words that are not zero and the size decide the memory. -/
theorem eq_of_nonzero
    {memory other : Memory}
    (sameSize : memory.size = other.size)
    (sameNonzero : memory.nonzero = other.nonzero) :
    memory = other := by
  have sameWord (index : Nat) : memory.word index = other.word index := by
    by_cases isZero : memory.word index = 0
    · by_contra different
      have listed : (index, other.word index) ∈ other.nonzero :=
        mem_nonzero_iff.mpr ⟨fun otherZero => different (isZero.trans otherZero.symm), rfl⟩
      rw [← sameNonzero] at listed
      exact different (mem_nonzero_iff.mp listed).2
    · have listed : (index, memory.word index) ∈ memory.nonzero :=
        mem_nonzero_iff.mpr ⟨isZero, rfl⟩
      rw [sameNonzero] at listed
      exact (mem_nonzero_iff.mp listed).2.symm
  exact eq_of_words sameSize fun index _ => sameWord index

end Memory

end TinyMips
