import TinyMips.Proofs.Assembly.Passes
import TinyMips.Proofs.Instruction.Printer
import TinyMips.Proofs.Source.Item
import TinyMips.Proofs.Text.Line

namespace TinyMips

/-!
# Printed instructions assemble

Instructions printed one on each line assemble to themselves, without labels and
with the line and the text of each as it was printed.
-/

namespace Item

/-- Lines that say nothing have no items. -/
theorem ofContents_of_silent
    {contents : List Content}
    (silent : ∀ content ∈ contents, content = Content.silent)
    (start : Nat) :
    ofContents start contents = [] := by
  rw [ofContents, List.flatMap_eq_nil_iff]
  rintro ⟨content, number⟩ member
  obtain rfl := silent content (List.fst_mem_of_mem_zipIdx member)
  rfl

/-- The items of printed instructions on lines of their own. -/
def ofPrinted (start : Nat) (instructions : List Instruction) : List Item :=
  (instructions.zipIdx start).map fun (instruction, line) =>
    .statement line instruction.statement

/-- Printed instructions, with silent lines behind them, give one item each. -/
theorem ofContents_printed
    (instructions : List Instruction)
    {rest : List Content}
    (silent : ∀ content ∈ rest, content = Content.silent)
    (start : Nat) :
    ofContents start (instructions.map Instruction.content ++ rest) =
      ofPrinted start instructions := by
  induction instructions generalizing start with
  | nil =>
      exact ofContents_of_silent silent start
  | cons instruction instructions inductionHypothesis =>
      have later := inductionHypothesis (start + 1)
      rw [ofContents, ofPrinted] at later
      rw [ofContents, ofPrinted, List.map_cons, List.cons_append, List.zipIdx_cons,
        List.zipIdx_cons, List.flatMap_cons, List.map_cons, later]
      rfl

/-- The items of printed instructions are their statements, line by line. -/
theorem statements_ofPrinted
    (start : Nat)
    (instructions : List Instruction) :
    statements (ofPrinted start instructions) =
      (instructions.zipIdx start).map fun (instruction, line) =>
        (line, instruction.statement) := by
  simp [statements, ofPrinted, List.filterMap_map]

end Item

namespace Assembly

/-- Printed instructions define no labels. -/
theorem collectSymbols_ofPrinted
    (table : SymbolTable)
    (index start : Nat)
    (instructions : List Instruction) :
    collectSymbols table index (Item.ofPrinted start instructions) = .ok table := by
  induction instructions generalizing index start with
  | nil =>
      rfl
  | cons instruction instructions inductionHypothesis =>
      exact inductionHypothesis (index + 1) (start + 1)

/-- Printed instructions assemble to the program that has them and no labels. -/
theorem ofItems_ofPrinted
    (instructions : List Instruction) :
    ofItems (Item.ofPrinted 1 instructions) = .ok (Program.ofInstructions instructions) := by
  rw [ofItems_eq_ok_iff, Item.statements_ofPrinted]
  refine ⟨collectSymbols_ofPrinted .empty 0 1 instructions, ?_, ?_⟩
  · have reads (numbered : Instruction × Nat) (index : Nat) :
        encodeAt SymbolTable.empty ((numbered.2, numbered.1.statement), index) =
          .ok numbered.1 := by
      simp [encodeAt, Instruction.encodeStatement_statement, Except.mapError]
    have encoded := mapM_numbered_of_reads reads (instructions.zipIdx 1) 0
    rw [List.zipIdx_map_fst] at encoded
    exact encoded
  · simp [Program.ofInstructions, Function.comp_def, Instruction.statement_text]

end Assembly

/-- A text whose lines are printed instructions and then nothing assembles to these instructions. -/
theorem assemble_of_lines
    {source : Text}
    {instructions : List Instruction}
    {rest : List Text}
    (lines :
      (Line.split source).map Line.text = instructions.map Instruction.text ++ rest)
    (silent : ∀ text ∈ rest, text = []) :
    assemble source = .ok (Program.ofInstructions instructions) := by
  have silentRead (text : Text) (member : text ∈ rest) :
      Content.ofLine? text = some Content.silent := by
    rw [silent text member]
    exact Content.ofLine?_nil
  have reads :
      (Line.split source).map (fun line => Content.ofLine? line.text) =
        (instructions.map Instruction.content ++ rest.map fun _ => Content.silent).map some := by
    calc (Line.split source).map (fun line => Content.ofLine? line.text)
        = ((Line.split source).map Line.text).map Content.ofLine? := by
            simp [Function.comp_def]
      _ = instructions.map (fun instruction => Content.ofLine? instruction.text) ++
            rest.map Content.ofLine? := by
            rw [lines]
            simp [Function.comp_def]
      _ = (instructions.map Instruction.content ++ rest.map fun _ => Content.silent).map some := by
            rw [List.map_congr_left silentRead]
            simp [Function.comp_def, Instruction.ofLine?_text]
  have itemsRead := Item.ofText_of_contents reads
  rw [Item.ofContents_printed instructions (by simp)] at itemsRead
  exact assemble_eq_ok_iff.mpr ⟨_, itemsRead, Assembly.ofItems_ofPrinted instructions⟩

theorem Instruction.isOneLine_of_mem_texts
    (instructions : List Instruction) :
    ∀ row ∈ instructions.map Instruction.text, row.IsOneLine := by
  intro row member
  obtain ⟨instruction, _, rfl⟩ := List.mem_map.mp member
  exact instruction.text_isOneLine

/-- Printed instructions, each on a line that a line feed ends. -/
def Instruction.terminatedLines (instructions : List Instruction) : Text :=
  instructions.flatMap fun instruction => instruction.text ++ ['\n']

/-- Printed instructions on lines of their own, with line feeds between them. -/
def Instruction.joinedLines (instructions : List Instruction) : Text :=
  List.intercalate ['\n'] (instructions.map Instruction.text)

/-- Printed instructions assemble to themselves with a line feed behind each. -/
theorem assemble_terminatedLines
    (instructions : List Instruction) :
    assemble (Instruction.terminatedLines instructions) =
      .ok (Program.ofInstructions instructions) := by
  have shape :
      Instruction.terminatedLines instructions =
        ((instructions.map Instruction.text).flatMap fun row => row ++ ['\n']) ++ [] := by
    simp [Instruction.terminatedLines, List.flatMap_map]
  have oneLine := Instruction.isOneLine_of_mem_texts instructions
  have lines :
      (Line.split (Instruction.terminatedLines instructions)).map Line.text =
        instructions.map Instruction.text ++ [[]] := by
    rw [shape, Line.split_rows oneLine Text.isOneLine_nil]
    simp [Function.comp_def]
  exact assemble_of_lines lines (by simp)

theorem Line.intercalate_append
    (rows : List Text)
    (final : Text) :
    List.intercalate ['\n'] (rows ++ [final]) =
      (rows.flatMap fun row => row ++ ['\n']) ++ final := by
  induction rows with
  | nil =>
      simp
  | cons row rows inductionHypothesis =>
      rw [List.cons_append, List.intercalate_cons_of_ne_nil (by simp), inductionHypothesis]
      simp

/-- Printed instructions assemble to themselves with line feeds between them only. -/
theorem assemble_joinedLines
    (instructions : List Instruction) :
    assemble (Instruction.joinedLines instructions) =
      .ok (Program.ofInstructions instructions) := by
  rcases List.eq_nil_or_concat' instructions with rfl | ⟨before, last, rfl⟩
  · exact assemble_of_lines (by rfl) (by simp : ∀ text ∈ [[]], text = [])
  · have oneLine := Instruction.isOneLine_of_mem_texts before
    have lines :
        (Line.split (Instruction.joinedLines (before ++ [last]))).map Line.text =
          (before ++ [last]).map Instruction.text ++ [] := by
      rw [Instruction.joinedLines, List.map_append, List.map_singleton,
        Line.intercalate_append, Line.split_rows oneLine last.text_isOneLine]
      simp [Function.comp_def]
    exact assemble_of_lines lines (by simp)

/--
Printed instructions, one on each line, assemble to a program without labels that
has these instructions, and each of them with the line and the text it was
printed with.
-/
theorem printed_instructions_assemble
    (instructions : List Instruction) :
    ∃ program,
      assemble (Instruction.joinedLines instructions) = .ok program ∧
        assemble (Instruction.terminatedLines instructions) = .ok program ∧
        program.symbols = .empty ∧
        program.instructions.toList = instructions ∧
        ∀ index,
          program.sourceLine? index =
            instructions[index]?.map fun instruction => ⟨index + 1, instruction.text⟩ := by
  refine ⟨Program.ofInstructions instructions, assemble_joinedLines instructions,
    assemble_terminatedLines instructions, rfl, rfl, ?_⟩
  intro index
  simp only [Program.sourceLine?, Program.ofInstructions, List.getElem?_toArray,
    List.getElem?_map, List.getElem?_zipIdx]
  cases instructions[index]? with
  | none => rfl
  | some instruction => simp [Nat.add_comm]

end TinyMips
