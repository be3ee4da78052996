import Mathlib.Logic.Relation
import TinyMips.Proofs.Grammar.Source
import TinyMips.Proofs.Surface.Line

namespace TinyMips

/-!
# Surface form does not matter

A source can be edited line by line in ways that change what it looks like and not what it
means. Each edit replaces one line by lines that define the same names at the same places
and hold a statement that means the same, so the edited source assembles to the same
instructions with the same index for each label name. Where an edit puts a lone carriage
return before an empty line with a line feed, the two lines become one, and nothing is lost
because the empty line says nothing.
-/

namespace Item

open Grammar

/-- The items on rows of the language, without the numbers of the rows. -/
inductive AreOn : List Text → List Item → Prop where
  | nil :
      AreOn [] []
  | row
      {text : Text}
      {content : Content}
      {rows : List Text}
      {items : List Item}
      (isLine : IsLine text content)
      (later : AreOn rows items) :
      AreOn (text :: rows) (ofContent 0 content ++ items)

/-- Items are on rows exactly if they come, row by row, from contents of these rows. -/
theorem areOn_iff
    {rows : List Text}
    {items : List Item} :
    AreOn rows items ↔
      ∃ contents, List.Forall₂ IsLine rows contents ∧ items = contents.flatMap (ofContent 0) := by
  constructor
  · intro areOn
    induction areOn with
    | nil =>
        exact ⟨[], .nil, rfl⟩
    | row isLine _ inductionHypothesis =>
        obtain ⟨contents, areLines, rfl⟩ := inductionHypothesis
        exact ⟨_, .cons isLine areLines, List.flatMap_cons.symm⟩
  · rintro ⟨contents, areLines, rfl⟩
    induction areLines with
    | nil => exact .nil
    | cons isLine _ inductionHypothesis => exact .row isLine inductionHypothesis

/-- A source is accepted with the items on its rows. -/
theorem areOn_split_iff
    {source : Text}
    {items : List Item} :
    AreOn ((Line.split source).map Line.text) items ↔
      ∃ numbered, ofText source = .ok numbered ∧ numbered.map unnumbered = items := by
  simp only [areOn_iff, forall₂_isLine_iff, ofText_eq_ok_iff]
  constructor
  · rintro ⟨contents, reads, rfl⟩
    exact ⟨_, ⟨contents, reads, rfl⟩, map_unnumbered_ofContents 1 contents⟩
  · rintro ⟨_, ⟨contents, reads, rfl⟩, rfl⟩
    exact ⟨contents, reads, map_unnumbered_ofContents 1 contents⟩

/-- Items on some rows and items on others are together on all of them. -/
theorem AreOn.append
    {rows others : List Text}
    {items more : List Item}
    (first : AreOn rows items)
    (second : AreOn others more) :
    AreOn (rows ++ others) (items ++ more) := by
  induction first with
  | nil =>
      exact second
  | row isLine _ inductionHypothesis =>
      rw [List.cons_append, List.append_assoc]
      exact .row isLine inductionHypothesis

/-- A row can be replaced by rows with items that assemble alike. -/
theorem AreOn.replace
    {before new after : List Text}
    {text : Text}
    {items : List Item}
    (areOn : AreOn (before ++ text :: after) items)
    (replaced :
      ∀ content,
        IsLine text content → ∃ others, AreOn new others ∧ Alike (ofContent 0 content) others) :
    ∃ others, AreOn (before ++ (new ++ after)) others ∧ Alike items others := by
  induction before generalizing items with
  | nil =>
      cases areOn with
      | @row _ content _ items isLine later =>
          obtain ⟨others, areOthers, alike⟩ := replaced content isLine
          exact ⟨others ++ items, areOthers.append later, alike.append (.refl items)⟩
  | cons first before inductionHypothesis =>
      cases areOn with
      | @row _ content _ items isLine later =>
          obtain ⟨others, areOthers, alike⟩ := inductionHypothesis later
          exact ⟨ofContent 0 content ++ others, .row isLine areOthers,
            (Alike.refl _).append alike⟩

/-- An empty row has no items. -/
theorem AreOn.of_emptyRow
    {rows : List Text}
    {items : List Item}
    (areOn : AreOn ([] :: rows) items) :
    AreOn rows items := by
  generalize shape : [] :: rows = all at areOn
  cases areOn with
  | nil => simp at shape
  | row isLine later =>
      obtain ⟨rfl, rfl⟩ := List.cons.inj shape
      obtain rfl := Content.eq_of_isLine isLine Content.isLine_nil
      exact later

/-- The text that lines make up has the items on the lines, even if two of them become one. -/
theorem AreOn.split_join
    {lines : List Line}
    (areEnded : Line.AreEnded lines)
    {items : List Item}
    (areOn : AreOn (lines.map Line.text) items) :
    AreOn ((Line.split (Line.join lines)).map Line.text) items := by
  induction areEnded generalizing items with
  | final oneLine =>
      simpa [Line.join, LineEnding.text, Line.split_of_isOneLine oneLine] using areOn
  | @more line lines oneLine ended _ inductionHypothesis =>
      cases areOn with
      | @row _ _ _ items isLine later =>
          have areLater := inductionHypothesis later
          obtain ⟨kept, others, joined, apart⟩ := Line.split_ending ended (Line.join lines)
          -- A line feed that joins the ending takes its own line with it, which has no items.
          have areOthers : AreOn (others.map Line.text) items := by
            rcases apart with same | joins
            · rwa [same] at areLater
            · rw [joins] at areLater
              exact areLater.of_emptyRow
          rw [Line.join_cons, Line.split_append oneLine joined]
          simpa using AreOn.row isLine areOthers

/-- A label in front of other ones, or behind them, names the same statement. -/
theorem alike_of_movedLabel
    (name : Text)
    (names later : List Text)
    (statement? : Option Statement) :
    Alike (ofContent 0 ⟨names ++ name :: later, statement?⟩)
      (ofContent 0 ⟨[name], none⟩ ++ ofContent 0 ⟨names ++ later, statement?⟩) where
  places index := by
    rw [places_append, places_ofContent, places_ofContent, places_ofContent]
    simp [ofContent, statements]
  statements := by
    rw [bodies_append, bodies_ofContent, bodies_ofContent, bodies_ofContent]
    exact Statement.forall₂_alike_refl _

end Item

namespace Surface

open Grammar

/--
One edit of a line: of its text or its ending, a blank, comment or directive line before it
or, at the end of the text, after it, or one of its labels on a line of its own before it.
-/
inductive LineEdit : Line → List Line → Prop where
  | text
      (line : Line)
      {text : Text}
      (edit : TextEdit line.text text)
      (oneLine : text.IsOneLine) :
      LineEdit line [{ line with text }]
  | ending
      (text : Text)
      {old new : LineEnding}
      (oldEnds : old ≠ .endOfText)
      (newEnds : new ≠ .endOfText) :
      LineEdit ⟨text, old⟩ [⟨text, new⟩]
  | insert
      {added : Text}
      {ending : LineEnding}
      (silent : IsLine added .silent)
      (oneLine : added.IsOneLine)
      (ends : ending ≠ .endOfText)
      (line : Line) :
      LineEdit line [⟨added, ending⟩, line]
  | append
      (text : Text)
      {added : Text}
      {ending : LineEnding}
      (silent : IsLine added .silent)
      (oneLine : added.IsOneLine)
      (ends : ending ≠ .endOfText) :
      LineEdit ⟨text, .endOfText⟩ [⟨text, ending⟩, ⟨added, .endOfText⟩]
  | label
      {leading labels name rest : Text}
      {names : List Text}
      {old new : LineEnding}
      (areBlanks : Blanks leading)
      (areLabels : AreLabels labels names)
      (isIdentifier : Identifier name)
      (ends : new ≠ .endOfText) :
      LineEdit ⟨leading ++ (labels ++ (name ++ ':' :: rest)), old⟩
        [⟨name ++ [':'], new⟩, ⟨leading ++ (labels ++ rest), old⟩]

/-- One edit of a source, in any of its lines. -/
inductive SourceEdit : Text → Text → Prop where
  | mk
      {source edited : Text}
      {before after news : List Line}
      {line : Line}
      (lines : Line.split source = before ++ line :: after)
      (edit : LineEdit line news)
      (joined : Line.join (before ++ (news ++ after)) = edited) :
      SourceEdit source edited

/-- An edited line ends as lines do. -/
theorem LineEdit.areEnded
    {line : Line}
    {news after : List Line}
    (edit : LineEdit line news)
    (areEnded : Line.AreEnded (line :: after)) :
    Line.AreEnded (news ++ after) := by
  cases edit with
  | text _ _ oneLine =>
      exact areEnded.withText oneLine
  | ending text oldEnds newEnds =>
      cases areEnded with
      | final => exact absurd rfl oldEnds
      | more oneLine _ later => exact .more oneLine newEnds later
  | insert _ oneLine ends =>
      exact .more oneLine ends areEnded
  | append text _ oneLine ends =>
      cases areEnded with
      | final textOneLine => exact .more textOneLine ends (.final oneLine)
      | more _ ended _ => exact absurd rfl ended
  | @label leading labels name rest _ _ _ _ _ _ ends =>
      have oneLine := areEnded.isOneLine
      simp only [Text.isOneLine_append_iff, Text.isOneLine_cons_iff] at oneLine
      obtain ⟨leadingOneLine, labelsOneLine, nameOneLine, colon, restOneLine⟩ := oneLine
      have nameLine : Text.IsOneLine (name ++ [':']) := by
        simp [nameOneLine]
      have restLine : Text.IsOneLine (leading ++ (labels ++ rest)) := by
        simp [leadingOneLine, labelsOneLine, restOneLine]
      exact .more nameLine ends (areEnded.withText restLine)

/-- The lines that a line becomes have items that assemble as those of the line do. -/
theorem LineEdit.alike
    {line : Line}
    {news : List Line}
    (edit : LineEdit line news)
    {content : Content}
    (isLine : IsLine line.text content) :
    ∃ others,
      Item.AreOn (news.map Line.text) others ∧ Item.Alike (Item.ofContent 0 content) others := by
  cases edit with
  | text _ edit _ =>
      obtain ⟨other, isNew, alike⟩ := edit.alike isLine
      refine ⟨_, .row isNew .nil, ?_⟩
      rw [List.append_nil]
      exact Item.alike_of_contents alike 0 0
  | ending text _ _ =>
      refine ⟨_, .row isLine .nil, ?_⟩
      rw [List.append_nil]
      exact .refl _
  | insert silent _ _ =>
      refine ⟨_, .row silent (.row isLine .nil), ?_⟩
      rw [List.append_nil]
      exact .refl _
  | append text silent _ _ =>
      refine ⟨_, .row isLine (.row silent .nil), ?_⟩
      rw [List.append_nil, show Item.ofContent 0 .silent = [] from rfl, List.append_nil]
      exact .refl _
  | label areBlanks areLabels isIdentifier _ =>
      obtain ⟨all, statement?⟩ := content
      rw [Content.isLine_blanks_iff areBlanks, Content.isLine_labels_iff areLabels] at isLine
      obtain ⟨_, rfl, fromName⟩ := isLine
      obtain ⟨later, rfl, isRest⟩ := (Content.isLine_label_iff isIdentifier).mp fromName
      have nameLine := (Content.isLine_label_iff isIdentifier).mpr ⟨[], rfl, Content.isLine_nil⟩
      have restLine := (Content.isLine_labels_iff areLabels).mpr ⟨later, rfl, isRest⟩
      rw [← Content.isLine_blanks_iff areBlanks] at restLine
      refine ⟨_, .row nameLine (.row restLine .nil), ?_⟩
      rw [List.append_nil]
      exact Item.alike_of_movedLabel _ _ later statement?

/-- One edit changes neither the instructions of a source nor what its labels name. -/
theorem assemble_of_sourceEdit
    {source edited : Text}
    (edit : SourceEdit source edited)
    {program : Program}
    (assembled : assemble source = .ok program) :
    ∃ other,
      assemble edited = .ok other ∧
        other.instructions = program.instructions ∧
        ∀ name,
          (other.symbols.get? name).map Symbol.index =
            (program.symbols.get? name).map Symbol.index := by
  obtain ⟨items, read, encoded⟩ := assemble_eq_ok_iff.mp assembled
  obtain ⟨lines, edit, rfl⟩ := edit
  -- The edit replaces one row, and the rows of the edited text differ from these in an empty
  -- row at most, if the text is split at other places than the edit had in mind.
  have areOn := Item.areOn_split_iff.mpr ⟨items, read, rfl⟩
  rw [lines, List.map_append, List.map_cons] at areOn
  obtain ⟨others, areOthers, alike⟩ := areOn.replace fun content isLine => edit.alike isLine
  have areLines := Line.areLines_split source
  rw [lines] at areLines
  have areEnded := areLines.areEnded.replace edit.areEnded
  rw [← List.map_append, ← List.map_append] at areOthers
  obtain ⟨numbered, readAgain, rfl⟩ := Item.areOn_split_iff.mp (areOthers.split_join areEnded)
  obtain ⟨other, otherEncoded, sameInstructions, _, sameIndices⟩ :=
    Assembly.ofItems_of_alike (Item.alike_of_unnumbered alike) encoded
  exact ⟨other, assemble_eq_ok_iff.mpr ⟨numbered, readAgain, otherEncoded⟩, sameInstructions,
    sameIndices⟩

/-- A label of a program is found by its name as it was written, also by a branch. -/
theorem index_get?_of_ofItems
    {items : List Item}
    {program : Program}
    (assembled : Assembly.ofItems items = .ok program)
    (name : Text) :
    (∀ index,
        (program.symbols.get? name).map Symbol.index = some index ↔
          (name, index) ∈ Item.places 0 items) ∧
      ∀ index distance,
        Assembly.branchDistance program.symbols index (.symbol name) = .ok distance ↔
          ∃ target, (name, target) ∈ Item.places 0 items ∧ distance = target - (index + 1) := by
  obtain ⟨collected, _⟩ := Assembly.ofItems_eq_ok_iff.mp assembled
  obtain ⟨distinct, table⟩ := Assembly.collectSymbols_eq_ok_iff.mp collected
  have found (target : Nat) :
      (program.symbols.get? name).map Symbol.index = some target ↔
        (name, target) ∈ Item.places 0 items := by
    rw [table]
    exact Item.index_get?_symbols_eq_some_iff distinct
  refine ⟨found, fun index distance => ?_⟩
  simp only [← found, Assembly.branchDistance_symbol]
  cases (program.symbols.get? name).map Symbol.index with
  | none => simp
  | some target => simp [eq_comm]

/--
Edits of the surface form of a source that assembles, any number of them and in any lines,
leave the instructions and the indices of the labels as they were. A label is found by its
name exactly as it was written, in the table as well as by a branch.
-/
theorem assemble_of_edits
    {source edited : Text}
    (edits : Relation.ReflTransGen SourceEdit source edited)
    {program : Program}
    (assembled : assemble source = .ok program) :
    (∃ other,
        assemble edited = .ok other ∧
          other.instructions = program.instructions ∧
          ∀ name,
            (other.symbols.get? name).map Symbol.index =
              (program.symbols.get? name).map Symbol.index) ∧
      ∃ items,
        Item.ofText source = .ok items ∧
          ∀ name,
            (∀ index,
                (program.symbols.get? name).map Symbol.index = some index ↔
                  (name, index) ∈ Item.places 0 items) ∧
              ∀ index distance,
                Assembly.branchDistance program.symbols index (.symbol name) = .ok distance ↔
                  ∃ target, (name, target) ∈ Item.places 0 items ∧ distance = target - (index + 1) := by
  constructor
  · induction edits with
    | refl =>
        exact ⟨program, assembled, rfl, fun _ => rfl⟩
    | tail _ edit inductionHypothesis =>
        obtain ⟨middle, middleAssembled, sameInstructions, sameIndices⟩ := inductionHypothesis
        obtain ⟨other, otherAssembled, instructions, indices⟩ :=
          assemble_of_sourceEdit edit middleAssembled
        exact ⟨other, otherAssembled, instructions.trans sameInstructions,
          fun name => (indices name).trans (sameIndices name)⟩
  · obtain ⟨items, read, encoded⟩ := assemble_eq_ok_iff.mp assembled
    exact ⟨items, read, index_get?_of_ofItems encoded⟩

/-- A loop with its label before a statement. -/
def compactSource : Text :=
  Text.ofString "loop: addi t0, $zero, 0x10\nbeq $t0, $zero, loop"

/-- The same loop with the label on a line of its own, another spelling and a comment. -/
def spreadSource : Text :=
  Text.ofString "loop:\r\n ADDI $8 $Zero ,+016# count\nbeq $t0, $zero, loop"

/-- The arguments of a statement, with names of registers and an integer in base sixteen. -/
def namedArguments : List Statement.Separated :=
  [([' '], .symbol ['t', '0']), ([',', ' '], .register ['$', 'z', 'e', 'r', 'o']),
    ([',', ' '], .immediate ['0', 'x', '1', '0'])]

/-- The same arguments, with a number and in upper case, and with an integer in base ten. -/
def numberedArguments : List Statement.Separated :=
  [([' '], .register ['$', '8']), ([' '], .register ['$', 'Z', 'e', 'r', 'o']),
    ([' ', ','], .immediate ['+', '0', '1', '6'])]

/-- The two statements differ only in how their parts are spelled. -/
theorem addi_isRespelled :
    Statement.IsRespelled (['a', 'd', 'd', 'i'] ++ Statement.separatedTexts namedArguments)
      (['A', 'D', 'D', 'I'] ++ Statement.separatedTexts numberedArguments) := by
  have old : Literal.Denotes ['0', 'x', '1', '0'] 16 :=
    .unsigned (.hexadecimal (.inl rfl) (by simp) (List.all_eq_true.mp rfl))
  have new : Literal.Denotes ['+', '0', '1', '6'] 16 :=
    .positive (.decimal (by simp) (List.all_eq_true.mp rfl))
  have target : Reg.IsNamed ⟨8⟩ ['t', '0'] :=
    .inl (by decide +kernel)
  have targetNumber : Reg.IsMarked ⟨8⟩ ['$', '8'] :=
    .number (by simp) (List.all_eq_true.mp rfl) (by decide +kernel)
  have source : Reg.IsMarked .zero ['$', 'z', 'e', 'r', 'o'] :=
    .name (.inl (by decide +kernel))
  have sourceUpper : Reg.IsMarked .zero ['$', 'Z', 'e', 'r', 'o'] :=
    .name (.inl (by decide +kernel))
  have oldSeparators :
      ∀ separator ∈ [[',', ' '], [',', ' ']],
        Token.separator? separator = some ⟨separator, []⟩ := by
    decide +kernel
  have newSeparators :
      ∀ separator ∈ [[' '], [' ', ',']], Token.separator? separator = some ⟨separator, []⟩ := by
    decide +kernel
  have operandsRead :
      ∀ operand ∈ namedArguments.map Prod.snd,
        Operand.read? operand.text = some (operand, []) := by
    decide +kernel
  have oldApart : AreApart (namedArguments.map Prod.fst) :=
    .mk (by simp) (List.all_eq_true.mp rfl) fun separator member =>
      Token.separator_of_separator? (oldSeparators separator member)
  have newApart : AreApart (numberedArguments.map Prod.fst) :=
    .mk (by simp) (List.all_eq_true.mp rfl) fun separator member =>
      Token.separator_of_separator? (newSeparators separator member)
  refine .mk (by decide +kernel : _ = some Mnemonic.addi) (by decide +kernel) oldApart newApart
    (fun operand member => Operand.isOperand_of_read? (operandsRead operand member)) ?_
  exact .cons (.register (.symbol target) (.register targetNumber))
    (.cons (.register (.register source) (.register sourceUpper))
      (.cons (.integer (.inl rfl) old new) .nil))

/-- Three edits lead from one source to the other, so both assemble to the same two words. -/
theorem compactSource_agrees_with_spreadSource :
    ∃ program other,
      assemble compactSource = .ok program ∧
        assemble spreadSource = .ok other ∧
          program.words = [0x20080010, 0x1100FFFE] ∧
          other.words = [0x20080010, 0x1100FFFE] ∧
          other.instructions = program.instructions ∧
          ∀ name,
            (other.symbols.get? name).map Symbol.index =
              (program.symbols.get? name).map Symbol.index := by
  obtain ⟨program, assembled⟩ :=
    exists_eq_ok_of_isOk (by decide +kernel : (assemble compactSource).isOk = true)
  have isIdentifier : Identifier ['l', 'o', 'o', 'p'] :=
    .mk (by decide) (List.all_eq_true.mp rfl)
  have moveLabel :
      SourceEdit compactSource
        (Text.ofString "loop:\r\n addi t0, $zero, 0x10\nbeq $t0, $zero, loop") :=
    @SourceEdit.mk _ _ [] [⟨Text.ofString "beq $t0, $zero, loop", .endOfText⟩] _ _
      (by decide +kernel)
      (@LineEdit.label [] [] _ (Text.ofString " addi t0, $zero, 0x10") _ .lineFeed .returnFeed
        .nil .none isIdentifier (by decide))
      (by decide +kernel)
  have respell :
      SourceEdit (Text.ofString "loop:\r\n addi t0, $zero, 0x10\nbeq $t0, $zero, loop")
        (Text.ofString "loop:\r\n ADDI $8 $Zero ,+016\nbeq $t0, $zero, loop") :=
    @SourceEdit.mk _ _ [⟨Text.ofString "loop:", .returnFeed⟩]
      [⟨Text.ofString "beq $t0, $zero, loop", .endOfText⟩] _ _ (by decide +kernel)
      (.text ⟨[' '] ++ ([] ++ ((['a', 'd', 'd', 'i'] ++ Statement.separatedTexts namedArguments)
            ++ [])), .lineFeed⟩
        (.statement (List.all_eq_true.mp rfl) .none addi_isRespelled (.mk .nil .none))
        (by decide +kernel))
      (by decide +kernel)
  have comment :
      SourceEdit (Text.ofString "loop:\r\n ADDI $8 $Zero ,+016\nbeq $t0, $zero, loop")
        spreadSource :=
    @SourceEdit.mk _ _ [⟨Text.ofString "loop:", .returnFeed⟩]
      [⟨Text.ofString "beq $t0, $zero, loop", .endOfText⟩] _ _ (by decide +kernel)
      (.text ⟨Text.ofString " ADDI $8 $Zero ,+016", .lineFeed⟩
        (.comment _ (Text.ofString " count")) (by decide +kernel))
      (by decide +kernel)
  have edits : Relation.ReflTransGen SourceEdit compactSource spreadSource :=
    .head moveLabel (.head respell (.single comment))
  obtain ⟨⟨other, otherAssembled, same, sameIndices⟩, _⟩ := assemble_of_edits edits assembled
  have words : program.words = [0x20080010, 0x1100FFFE] := by
    have read :
        (assemble compactSource).toOption.map Program.words =
          some [0x20080010, 0x1100FFFE] := by
      decide +kernel
    rw [assembled] at read
    exact Option.some.inj read
  have otherWords : other.words = program.words := by
    rw [Program.words, same, Program.words]
  exact ⟨program, other, assembled, otherAssembled, words, otherWords.trans words, same,
    sameIndices⟩

end Surface

end TinyMips
