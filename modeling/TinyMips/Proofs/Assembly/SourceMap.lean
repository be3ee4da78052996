import TinyMips.Proofs.Assembly.Branch
import TinyMips.Proofs.Grammar.Source
import TinyMips.Proofs.Surface.Line

namespace TinyMips

/-!
# Source lines of a program

An assembled program knows for each of its instructions the line it was written on, and its
text without what stands around it. The text is all that the instruction depends on: put on
a line of its own it is the same statement, and unless it branches to a label, which needs
the rest of the source, it becomes the same instruction.
-/

namespace Statement

open Grammar

/-- The label that a statement branches to, if it is a branch to a label. -/
def label? (statement : Statement) : Option Text :=
  match Mnemonic.ofText? statement.mnemonic, statement.operands with
  | some .beq, [_, _, .symbol label] => some label
  | _, _ => none

/-- A statement branches to a label exactly if it is a `beq` with the label in third place. -/
theorem label?_eq_some_iff
    {statement : Statement}
    {label : Text} :
    statement.label? = some label ↔
      Mnemonic.ofText? statement.mnemonic = some .beq ∧
        ∃ first second, statement.operands = [first, second, .symbol label] := by
  unfold label?
  split
  · rename_i first second name isBranch operands
    simp [isBranch, operands]
  · rename_i noBranch
    simp only [reduceCtorEq, false_iff, not_and, not_exists]
    intro isBranch first second operands
    exact noBranch _ _ _ isBranch operands

/-! ## Characters -/

/-- A character that instructions are written with. -/
def isTextChar (c : Char) : Bool :=
  Operand.isOperandChar c || Text.isBlank c || c = ','

/-- Blanks are characters of instructions. -/
theorem onlyTextChar_of_blanks
    {blanks : Text}
    (areBlanks : Blanks blanks) :
    Only isTextChar blanks := by
  intro c member
  simp [isTextChar, areBlanks c member]

theorem onlyTextChar_of_operandChars
    {text : Text}
    (inOperand : Only Operand.isOperandChar text) :
    Only isTextChar text := by
  intro c member
  simp [isTextChar, inOperand c member]

theorem onlyTextChar_of_separator
    {separator : Text}
    (isSeparator : Separator separator) :
    Only isTextChar separator := by
  cases isSeparator with
  | comma blanksBefore blanksAfter =>
      exact List.forall_mem_append.mpr ⟨onlyTextChar_of_blanks blanksBefore,
        List.forall_mem_cons.mpr ⟨by decide, onlyTextChar_of_blanks blanksAfter⟩⟩
  | blanks _ areBlanks => exact onlyTextChar_of_blanks areBlanks

/-- Operands, with what stands between them, have only characters of instructions. -/
theorem onlyTextChar_of_areOperands
    {text : Text}
    {operands : List Operand}
    (areOperands : AreOperands text operands) :
    Only isTextChar text := by
  induction areOperands with
  | one isOperand =>
      exact onlyTextChar_of_operandChars (Operand.onlyOperandChar_of_isOperand isOperand)
  | more isOperand separated _ inductionHypothesis =>
      have first :=
        onlyTextChar_of_operandChars (Operand.onlyOperandChar_of_isOperand isOperand)
      exact List.forall_mem_append.mpr
        ⟨List.forall_mem_append.mpr ⟨first, onlyTextChar_of_separator separated⟩,
          inductionHypothesis⟩

/-- An instruction has no comment and no line break in it. -/
theorem onlyTextChar_of_isInstruction
    {text : Text}
    {statement : Statement}
    (isInstruction : IsInstruction text statement) :
    Only isTextChar text := by
  have ofLetters
      {word : Text}
      (nonempty : word ≠ [])
      (letters : Only Char.isAlpha word) :
      Only isTextChar word :=
    onlyTextChar_of_operandChars
      (Operand.onlyOperandChar_of_identifier (Content.identifier_of_letters nonempty letters))
  cases isInstruction with
  | bare nonempty letters => exact ofLetters nonempty letters
  | applied nonempty letters _ areBlanks areOperands =>
      exact List.forall_mem_append.mpr
        ⟨List.forall_mem_append.mpr ⟨ofLetters nonempty letters, onlyTextChar_of_blanks areBlanks⟩,
          onlyTextChar_of_areOperands areOperands⟩

/-- An instruction stands on one line. -/
theorem isOneLine_of_isInstruction
    {text : Text}
    {statement : Statement}
    (isInstruction : IsInstruction text statement) :
    text.IsOneLine := by
  intro c member
  have inText := onlyTextChar_of_isInstruction isInstruction c member
  exact ⟨Text.ne_of_class inText (by decide), Text.ne_of_class inText (by decide)⟩

/-! ## First and last parts -/

/-- The text of operands ends with the last one. -/
theorem exists_last_of_areOperands
    {text : Text}
    {operands : List Operand}
    (areOperands : AreOperands text operands) :
    ∃ before last,
      text = before ++ last.text ∧
        operands.getLast? = some last ∧ IsOperand last.text last := by
  induction areOperands with
  | @one text operand isOperand =>
      obtain rfl := Operand.text_of_isOperand isOperand
      exact ⟨[], operand, rfl, rfl, isOperand⟩
  | @more text separator rest operand others _ _ areOthers inductionHypothesis =>
      obtain ⟨before, last, rfl, isLast, isOperand⟩ := inductionHypothesis
      refine ⟨text ++ separator ++ before, last, by simp, ?_, isOperand⟩
      cases others with
      | nil => simp at isLast
      | cons next later => rwa [List.getLast?_cons_cons]

/-- The text of a statement, without labels, comment and blanks around it. -/
structure IsTrimmed (statement : Statement) : Prop where
  begins : statement.mnemonic <+: statement.text
  ends : ∃ last, statement.operands.getLast? = some last ∧ last.text <:+ statement.text
  noLabel : ':' ∉ statement.text
  noComment : '#' ∉ statement.text
  noBlankBefore : ∀ c ∈ statement.text.head?, Text.isBlank c = false
  noBlankAfter : ∀ c ∈ statement.text.getLast?, Text.isBlank c = false

/-- A statement with operands is written without anything around it. -/
theorem isTrimmed_of_isInstruction
    {text : Text}
    {statement : Statement}
    (isInstruction : IsInstruction text statement)
    (hasOperands : statement.operands ≠ []) :
    statement.IsTrimmed := by
  have inText := onlyTextChar_of_isInstruction isInstruction
  cases isInstruction with
  | bare => exact absurd rfl hasOperands
  | @applied mnemonic blanks text operands nonempty letters _ _ areOperands =>
      obtain ⟨before, last, rfl, isLast, isOperand⟩ := exists_last_of_areOperands areOperands
      obtain ⟨first, rest, rfl⟩ := List.exists_cons_of_ne_nil nonempty
      obtain ⟨_, _, lastShape, _⟩ := Operand.isOperand_head isOperand
      have lastThere : last.text ≠ [] := by
        simp [lastShape]
      have ending : last.text <:+ (first :: rest) ++ blanks ++ (before ++ last.text) :=
        ⟨(first :: rest) ++ blanks ++ before, by simp⟩
      refine ⟨⟨blanks ++ (before ++ last.text), by simp⟩, ⟨last, isLast, ending⟩, ?_, ?_, ?_, ?_⟩
      · intro colon
        exact Text.ne_of_class (inText _ colon) (by decide) rfl
      · intro sign
        exact Text.ne_of_class (inText _ sign) (by decide) rfl
      · rintro _ ⟨⟩
        exact Text.isBlank_of_class (letters first (by simp)) (by decide) (by decide)
      · intro c isLastChar
        rw [← List.append_assoc, List.getLast?_append_of_ne_nil _ lastThere] at isLastChar
        exact Text.isBlank_of_class
          (Operand.onlyOperandChar_of_isOperand isOperand c (List.mem_of_getLast? isLastChar))
          (by decide) (by decide)

end Statement

/-! ## A statement on a line of its own -/

namespace Assembly

open Grammar

/-- Without a label to branch to, it does not matter where a statement stands. -/
theorem encodeStatement_of_noLabel
    {statement : Statement}
    (noLabel : statement.label? = none)
    (table other : SymbolTable)
    (index otherIndex : Nat) :
    encodeStatement table index statement = encodeStatement other otherIndex statement := by
  cases spelled : Mnemonic.ofText? statement.mnemonic with
  | none =>
      simp only [encodeStatement, spelled]
  | some mnemonic =>
      simp only [encodeStatement, spelled]
      unfold instruction
      split
      -- Only a branch looks at the table and at its own index.
      all_goals try rfl
      rename_i rs rt target operands
      cases target with
      | symbol label =>
          have isBranch := Statement.label?_eq_some_iff.mpr ⟨spelled, rs, rt, operands⟩
          simp [noLabel] at isBranch
      | register => rfl
      | immediate => rfl
      | memory => rfl

/-- Without the definition of the label, a branch to it is refused for that alone. -/
theorem encodeStatement_of_label
    {statement : Statement}
    {label : Text}
    (branches : statement.label? = some label)
    {table : SymbolTable}
    {index : Nat}
    {instruction : Instruction}
    (encoded : encodeStatement table index statement = .ok instruction) :
    encodeStatement .empty 0 statement = .error (.undefinedLabel label) := by
  obtain ⟨isBranch, first, second, operands⟩ := Statement.label?_eq_some_iff.mp branches
  obtain ⟨rs, rt, _, _, firstRead, secondRead, _⟩ :=
    encodeStatement_beq isBranch operands encoded
  simp only [encodeStatement, isBranch, operands, Assembly.instruction, firstRead, secondRead]
  rfl

/-- Every statement that becomes an instruction has operands. -/
theorem operands_ne_nil_of_encodeStatement
    {table : SymbolTable}
    {index : Nat}
    {statement : Statement}
    {instruction : Instruction}
    (encoded : encodeStatement table index statement = .ok instruction) :
    statement.operands ≠ [] := by
  intro noOperands
  unfold encodeStatement at encoded
  split at encoded
  · simp at encoded
  · simp [noOperands, Assembly.instruction] at encoded

/-- The program of a source that holds one instruction and nothing else. -/
def alone (text : Text) (instruction : Instruction) : Program where
  instructions := #[instruction]
  symbols := .empty
  lines := #[⟨1, text⟩]

/-- A statement by itself assembles to itself, or fails on the first line. -/
theorem ofItems_statement (statement : Statement) :
    ofItems [.statement 1 statement] =
      ((encodeStatement .empty 0 statement).mapError (⟨1, ·⟩)).map (alone statement.text) := by
  simp only [ofItems, collectSymbols, Item.statements, List.filterMap_cons, List.filterMap_nil,
    List.zipIdx_cons, List.zipIdx_nil, List.mapM_cons, List.mapM_nil, encodeAt, ok_bind]
  cases encodeStatement .empty 0 statement <;> rfl

/-- An instruction alone is assembled as a statement without labels around it. -/
theorem assemble_of_isInstruction
    {text : Text}
    {statement : Statement}
    (isInstruction : IsInstruction text statement) :
    assemble text =
      ((encodeStatement .empty 0 statement).mapError (⟨1, ·⟩)).map (alone text) := by
  obtain rfl := Statement.text_of_isInstruction isInstruction
  have isLine : IsLine statement.text ⟨[], some statement⟩ := by
    simpa using Surface.isLine_instruction .nil .none isInstruction (.mk .nil .none)
  have reads :
      (Line.split statement.text).map (fun line => Content.ofLine? line.text) =
        [⟨[], some statement⟩].map some := by
    rw [Line.split_of_isOneLine (Statement.isOneLine_of_isInstruction isInstruction)]
    exact congrArg ([·]) (Content.ofLine?_eq_some_iff.mpr isLine)
  rw [assemble_of_ofText (Item.ofText_of_contents reads)]
  exact ofItems_statement statement

/-! ## Source lines -/

/-- A statement of a source that can be read stands on the line with its number. -/
theorem exists_line_of_statement
    {source : Text}
    {items : List Item}
    (accepted : Item.ofText source = .ok items)
    {number : Nat}
    {statement : Statement}
    (member : (number, statement) ∈ Item.statements items) :
    0 < number ∧
      ∃ line, (Line.split source)[number - 1]? = some line ∧ statement.StandsOn line.text := by
  obtain ⟨contents, reads, rfl⟩ := Item.ofText_eq_ok_iff.mp accepted
  obtain ⟨positive, names, stated⟩ := Item.getElem?_of_mem_statements_ofContents member
  have read := congrArg (·[number - 1]?) reads
  simp only [List.getElem?_map, stated, Option.map_some] at read
  obtain ⟨line, onLine, isContent⟩ := Option.map_eq_some_iff.mp read
  exact ⟨positive, line, onLine,
    Statement.standsOn_of_isLine (Content.ofLine?_eq_some_iff.mp isContent)⟩

/-- What is recorded of an instruction is the number and the text of its statement. -/
theorem sourceLine?_eq_some_iff
    {items : List Item}
    {program : Program}
    (assembled : ofItems items = .ok program)
    {index : Nat}
    {recorded : SourceLine} :
    program.sourceLine? index = some recorded ↔
      ∃ statement,
        (Item.statements items)[index]? = some (recorded.line, statement) ∧
          recorded.text = statement.text := by
  obtain ⟨_, _, lines⟩ := ofItems_eq_ok_iff.mp assembled
  obtain ⟨number, text⟩ := recorded
  rw [Program.sourceLine?, lines, List.getElem?_toArray, List.getElem?_map]
  cases (Item.statements items)[index]? with
  | none => simp
  | some stated => simp [Prod.ext_iff, eq_comm]

/-- Exactly the instructions of a program have a source line. -/
theorem isSome_sourceLine?_iff
    {items : List Item}
    {program : Program}
    (assembled : ofItems items = .ok program)
    (index : Nat) :
    (program.sourceLine? index).isSome = true ↔ index < program.size := by
  obtain ⟨_, _, lines⟩ := ofItems_eq_ok_iff.mp assembled
  rw [size_eq_length_statements assembled, Program.sourceLine?, lines]
  simp

/-- Statements come in the order of their lines, and no two of them share a line. -/
theorem pairwise_statements_of_ofText
    {source : Text}
    {items : List Item}
    (accepted : Item.ofText source = .ok items) :
    (Item.statements items).Pairwise fun first second => first.1 < second.1 := by
  obtain ⟨contents, _, rfl⟩ := Item.ofText_eq_ok_iff.mp accepted
  exact Item.pairwise_statements_ofContents 1 contents

/-- Later instructions stand on later lines. -/
theorem line_lt_of_lt
    {source : Text}
    {items : List Item}
    {program : Program}
    (accepted : Item.ofText source = .ok items)
    (assembled : ofItems items = .ok program)
    {index later : Nat}
    (less : index < later)
    {recorded other : SourceLine}
    (first : program.sourceLine? index = some recorded)
    (second : program.sourceLine? later = some other) :
    recorded.line < other.line := by
  obtain ⟨_, found, _⟩ := (sourceLine?_eq_some_iff assembled).mp first
  obtain ⟨_, otherFound, _⟩ := (sourceLine?_eq_some_iff assembled).mp second
  obtain ⟨inside, isFirst⟩ := List.getElem?_eq_some_iff.mp found
  obtain ⟨otherInside, isSecond⟩ := List.getElem?_eq_some_iff.mp otherFound
  have increasing :=
    List.pairwise_iff_getElem.mp (pairwise_statements_of_ofText accepted) _ _ inside otherInside
      less
  rwa [isFirst, isSecond] at increasing

/-- What is recorded of an instruction, and what becomes of the recorded text alone. -/
structure Records
    (source : Text)
    (program : Program)
    (index : Nat)
    (recorded : SourceLine)
    (statement : Statement)
    (instruction : Instruction) :
    Prop where
  text : recorded.text = statement.text
  numbered : 0 < recorded.line
  onLine :
    ∃ line,
      (Line.split source)[recorded.line - 1]? = some line ∧ statement.StandsOn line.text
  trimmed : statement.IsTrimmed
  placed : program.instructions[index]? = some instruction
  encoded : encodeStatement program.symbols index statement = .ok instruction
  /-- The recorded text is all that the instruction depends on, apart from labels. -/
  reassembled :
    statement.label? = none → assemble recorded.text = .ok (alone recorded.text instruction)
  /-- A branch to a label needs the source around it. -/
  undefined :
    ∀ label,
      statement.label? = some label → assemble recorded.text = .error ⟨1, .undefinedLabel label⟩

/-- Each recorded line has a statement, and its instruction is the one at that index. -/
theorem exists_records
    {source : Text}
    {items : List Item}
    {program : Program}
    (accepted : Item.ofText source = .ok items)
    (assembled : ofItems items = .ok program)
    {index : Nat}
    {recorded : SourceLine}
    (found : program.sourceLine? index = some recorded) :
    ∃ statement instruction, Records source program index recorded statement instruction := by
  obtain ⟨statement, stated, text⟩ := (sourceLine?_eq_some_iff assembled).mp found
  obtain ⟨instruction, placed, encoded⟩ := instruction_of_statement assembled stated
  obtain ⟨numbered, line, onLine, standsOn⟩ :=
    exists_line_of_statement accepted (List.mem_of_getElem? stated)
  have isInstruction := standsOn.isInstruction
  refine ⟨statement, instruction, text, numbered, ⟨line, onLine, standsOn⟩,
    Statement.isTrimmed_of_isInstruction isInstruction (operands_ne_nil_of_encodeStatement encoded),
    placed, encoded, ?_, ?_⟩
  · intro noLabel
    rw [text, assemble_of_isInstruction isInstruction,
      encodeStatement_of_noLabel noLabel .empty program.symbols 0 index, encoded]
    rfl
  · intro label branches
    rw [text, assemble_of_isInstruction isInstruction, encodeStatement_of_label branches encoded]
    rfl

/--
An assembled program has a source line for each of its instructions and no others, and their
numbers increase. The recorded text stands on the line of its number, from the mnemonic to
the last operand and without what is around it. Alone it assembles to the one instruction of
its index, unless it branches to a label, which it then lacks.
-/
theorem source_lines_are_right
    {source : Text}
    {program : Program}
    (assembled : assemble source = .ok program) :
    (∀ index, (program.sourceLine? index).isSome = true ↔ index < program.size) ∧
      (∀ index later recorded other,
        index < later →
          program.sourceLine? index = some recorded →
            program.sourceLine? later = some other → recorded.line < other.line) ∧
      ∀ index recorded,
        program.sourceLine? index = some recorded →
          ∃ statement instruction,
            Records source program index recorded statement instruction := by
  obtain ⟨items, accepted, assembledItems⟩ := assemble_eq_ok_iff.mp assembled
  refine ⟨isSome_sourceLine?_iff assembledItems, ?_, ?_⟩
  · intro index later recorded other less first second
    exact line_lt_of_lt accepted assembledItems less first second
  · intro index recorded found
    exact exists_records accepted assembledItems found

/-- A source with labels, comments, a directive and lines that say nothing. -/
def commentedSource : Text :=
  Text.ofString
    "\n# header\nmain: addi $t0, $zero, 1 # one\n.text\n\n  lui $t1, 2\nbeq $t0,$t1 main#back"

/-- The program of `commentedSource`. -/
def commentedProgram : Program where
  instructions := #[.addi ⟨8⟩ .zero 1, .lui ⟨9⟩ 2, .beq ⟨8⟩ ⟨9⟩ 0xFFFD]
  symbols := ⟨[(Text.ofString "main", ⟨0, 3⟩)]⟩
  lines :=
    #[⟨3, Text.ofString "addi $t0, $zero, 1"⟩, ⟨6, Text.ofString "lui $t1, 2"⟩,
      ⟨7, Text.ofString "beq $t0,$t1 main"⟩]

/-- The second instruction of `commentedSource` is found on its line, and assembles alone. -/
theorem commentedSource_is_recorded :
    assemble commentedSource = .ok commentedProgram ∧
      commentedProgram.sourceLine? 1 = some ⟨6, Text.ofString "lui $t1, 2"⟩ ∧
      commentedProgram.sourceLine? 3 = none ∧
      (∃ line before after,
        (Line.split commentedSource)[5]? = some line ∧
          line.text = before ++ (Text.ofString "lui $t1, 2" ++ after)) ∧
      assemble (Text.ofString "lui $t1, 2") =
        .ok (alone (Text.ofString "lui $t1, 2") (.lui ⟨9⟩ 2)) := by
  have assembled : assemble commentedSource = .ok commentedProgram := by
    decide +kernel
  obtain ⟨present, _, recordsOf⟩ := source_lines_are_right assembled
  obtain ⟨statement, instruction, records⟩ :=
    recordsOf 1 ⟨6, Text.ofString "lui $t1, 2"⟩ rfl
  obtain rfl : .lui ⟨9⟩ 2 = instruction := Option.some.inj records.placed
  obtain ⟨line, onLine, standsOn⟩ := records.onLine
  obtain ⟨leading, labels, _, tail, shape, _⟩ := standsOn.around
  have noLabel : statement.label? = none := by
    by_contra branches
    obtain ⟨label, branches⟩ := Option.ne_none_iff_exists'.mp branches
    obtain ⟨isBranch, _, _, operands⟩ := Statement.label?_eq_some_iff.mp branches
    obtain ⟨_, _, _, isBeq, _⟩ := encodeStatement_beq isBranch operands records.encoded
    simp at isBeq
  refine ⟨assembled, rfl, ?_, ⟨line, leading ++ labels, tail, onLine, ?_⟩,
    records.reassembled noLabel⟩
  · exact Option.not_isSome_iff_eq_none.mp fun found => absurd ((present 3).mp found) (by decide)
  · rw [shape, ← records.text, List.append_assoc]

end Assembly

end TinyMips
