import TinyMips.Proofs.Assembly.Numbering
import TinyMips.Proofs.Assertion.Mark
import TinyMips.Proofs.Grammar.Source
import TinyMips.Proofs.Text.Rows

namespace TinyMips

/-!
# Which lines are collected

Assertions are collected from the rows of a source, which line feeds alone separate,
while the assembler reads its lines, which lone carriage returns separate as well. The
two agree exactly on the sources in which every line that is meant as an assertion
shares its row with white space only.
-/

namespace Assertion

/-- The trimmed texts of the lines that are meant as assertions. -/
def markedTexts (lines : List Line) : List Text :=
  (lines.map fun line => line.text.trim).filter isMarked

/-- In its row, a line that is meant as an assertion is the only one that is not blank. -/
def MarksStandAlone (lines : List Line) : Prop :=
  ∀ row ∈ Line.byRows lines, ∀ line ∈ row,
    isMarked line.text.trim = true → row.filter (fun other => other.text.trim ≠ []) = [line]

instance (lines : List Line) : Decidable (MarksStandAlone lines) :=
  inferInstanceAs (Decidable (∀ row ∈ Line.byRows lines, ∀ line ∈ row,
    isMarked line.text.trim = true → row.filter (fun other => other.text.trim ≠ []) = [line]))

/-! ## One row -/

/-- Apart from line feeds, line endings are white space. -/
theorem isWhite_ending (ending : LineEnding) :
    Text.IsWhite (ending.text.filter (· ≠ '\n')) := by
  cases ending <;> decide

/-- A row of blank lines is white space. -/
theorem isWhite_rowText
    {row : List Line}
    (blank : ∀ line ∈ row, line.text.trim = []) :
    (Line.rowText row).IsWhite := by
  induction row with
  | nil =>
      simp [Line.rowText, Text.IsWhite]
  | cons line row inductionHypothesis =>
      have first : line.text.IsWhite :=
        Text.trim_eq_nil_iff.mp (blank line (List.mem_cons_self ..))
      have rest := inductionHypothesis fun other member =>
        blank other (List.mem_cons_of_mem _ member)
      rw [Line.rowText_cons]
      exact Text.isWhite_append_iff.mpr
        ⟨first, Text.isWhite_append_iff.mpr ⟨isWhite_ending line.ending, rest⟩⟩

/-- What is visible in a row is visible in its lines. -/
theorem visible_rowText (row : List Line) :
    (Line.rowText row).visible = row.flatMap fun line => line.text.visible := by
  induction row with
  | nil =>
      rfl
  | cons line row inductionHypothesis =>
      rw [Line.rowText_cons, Text.visible_append, Text.visible_append,
        Text.visible_eq_nil_iff.mpr (isWhite_ending line.ending), List.nil_append,
        inductionHypothesis, List.flatMap_cons]

/-- A marked row has a marked line: its first one that is not blank. -/
theorem exists_marked_of_isRow
    {row : List Line}
    (isRow : Line.IsRow row)
    (marked : isMarked (Line.rowText row).trim = true) :
    ∃ line ∈ row, isMarked line.text.trim = true := by
  induction isRow with
  | last line =>
      rw [Line.rowText_cons] at marked
      have endsWhite :
          Text.IsWhite (line.ending.text.filter (· ≠ '\n') ++ Line.rowText []) :=
        Text.isWhite_append_iff.mpr ⟨isWhite_ending line.ending, isWhite_rowText (by simp)⟩
      rw [Text.trim_append_white line.text endsWhite] at marked
      exact ⟨line, by simp, marked⟩
  | @more line row returns _ inductionHypothesis =>
      rw [Line.rowText_cons, returns] at marked
      by_cases isWhite : line.text.IsWhite
      · rw [Text.trim_white_append isWhite,
          Text.trim_white_append (isWhite_ending .carriageReturn)] at marked
        obtain ⟨other, member, otherMarked⟩ := inductionHypothesis marked
        exact ⟨other, List.mem_cons_of_mem _ member, otherMarked⟩
      · exact ⟨line, List.mem_cons_self .., isMarked_trim_of_return isWhite marked⟩

/-- A line that is alone in its row has the trimmed text of the row. -/
theorem trim_rowText_of_alone
    {row : List Line}
    {line : Line}
    (alone : row.filter (fun other => other.text.trim ≠ []) = [line]) :
    (Line.rowText row).trim = line.text.trim := by
  obtain ⟨before, after, rfl, blankBefore, _, noneAfter⟩ := List.filter_eq_cons_iff.mp alone
  have blankAfter := List.filter_eq_nil_iff.mp noneAfter
  have beforeWhite : (Line.rowText before).IsWhite :=
    isWhite_rowText (by simpa using blankBefore)
  have afterWhite :
      Text.IsWhite (line.ending.text.filter (· ≠ '\n') ++ Line.rowText after) :=
    Text.isWhite_append_iff.mpr
      ⟨isWhite_ending line.ending, isWhite_rowText (by simpa using blankAfter)⟩
  have shape :
      Line.rowText (before ++ line :: after) =
        Line.rowText before ++
          (line.text ++ (line.ending.text.filter (· ≠ '\n') ++ Line.rowText after)) := by
    rw [← Line.rowText_cons, Line.rowText, List.flatMap_append]
    rfl
  rw [shape, Text.trim_white_append beforeWhite, Text.trim_append_white _ afterWhite]

/-- Where nothing is visible, every line is blank. -/
theorem filter_eq_nil_of_nothing_visible
    {row : List Line}
    (nothing : (row.flatMap fun line => line.text.visible) = []) :
    row.filter (fun other => other.text.trim ≠ []) = [] := by
  rw [List.filter_eq_nil_iff]
  intro line member
  have isWhite := Text.visible_eq_nil_iff.mp (List.flatMap_eq_nil_iff.mp nothing line member)
  simpa using Text.trim_eq_nil_iff.mpr isWhite

theorem ne_nil_of_isMarked
    {text : Text}
    (marked : isMarked text = true) :
    text ≠ [] := by
  rintro rfl
  simp [isMarked_nil] at marked

/-- A marked line that shows all that is visible in its row is alone there. -/
theorem alone_of_trim_rowText
    {row : List Line}
    {line : Line}
    (member : line ∈ row)
    (marked : isMarked line.text.trim = true)
    (same : (Line.rowText row).trim = line.text.trim) :
    row.filter (fun other => other.text.trim ≠ []) = [line] := by
  obtain ⟨before, after, rfl⟩ := List.append_of_mem member
  have visible := visible_rowText (before ++ line :: after)
  rw [← Text.visible_trim, same, Text.visible_trim, List.flatMap_append, List.flatMap_cons]
    at visible
  have lengths := congrArg List.length visible
  simp only [List.length_append] at lengths
  have nothingBefore : (before.flatMap fun other => other.text.visible) = [] :=
    List.eq_nil_of_length_eq_zero (by omega)
  have nothingAfter : (after.flatMap fun other => other.text.visible) = [] :=
    List.eq_nil_of_length_eq_zero (by omega)
  rw [List.filter_append, List.filter_cons_of_pos (by simp [ne_nil_of_isMarked marked]),
    filter_eq_nil_of_nothing_visible nothingBefore, filter_eq_nil_of_nothing_visible nothingAfter,
    List.nil_append]

/-- Blank lines are not marked. -/
theorem markedTexts_filter (row : List Line) :
    markedTexts (row.filter fun other => other.text.trim ≠ []) = markedTexts row := by
  rw [markedTexts, List.filter_map, List.filter_filter, markedTexts, List.filter_map]
  apply congrArg
  apply List.filter_congr
  intro other _
  by_cases marked : isMarked other.text.trim = true
  · simp [marked, ne_nil_of_isMarked marked]
  · simp [marked]

/-- The texts that collecting finds in a row are those of its lines if marked lines are alone. -/
theorem filter_rowText_eq_iff
    {row : List Line}
    (isRow : Line.IsRow row) :
    [(Line.rowText row).trim].filter isMarked = markedTexts row ↔
      ∀ line ∈ row,
        isMarked line.text.trim = true →
          row.filter (fun other => other.text.trim ≠ []) = [line] := by
  constructor
  · intro same line member marked
    have collected : line.text.trim ∈ [(Line.rowText row).trim].filter isMarked := by
      rw [same]
      exact List.mem_filter.mpr ⟨List.mem_map_of_mem member, marked⟩
    have sameText := List.mem_singleton.mp (List.mem_filter.mp collected).1
    exact alone_of_trim_rowText member marked sameText.symm
  · intro alone
    by_cases anyMarked : ∃ line ∈ row, isMarked line.text.trim = true
    · obtain ⟨line, member, marked⟩ := anyMarked
      have lineAlone := alone line member marked
      rw [trim_rowText_of_alone lineAlone, ← markedTexts_filter, lineAlone]
      rfl
    · have noneMarked : markedTexts row = [] := by
        simpa [markedTexts] using anyMarked
      have rowUnmarked : ¬ isMarked (Line.rowText row).trim = true := fun marked =>
        anyMarked (exists_marked_of_isRow isRow marked)
      rw [noneMarked, List.filter_cons_of_neg rowUnmarked, List.filter_nil]

/-- Collecting finds at most as many texts in a row as there are marked lines. -/
theorem length_filter_rowText_le
    {row : List Line}
    (isRow : Line.IsRow row) :
    ([(Line.rowText row).trim].filter isMarked).length ≤ (markedTexts row).length := by
  by_cases marked : isMarked (Line.rowText row).trim = true
  · obtain ⟨line, member, lineMarked⟩ := exists_marked_of_isRow isRow marked
    have found : line.text.trim ∈ markedTexts row :=
      List.mem_filter.mpr ⟨List.mem_map_of_mem member, lineMarked⟩
    rw [List.filter_cons_of_pos marked]
    exact List.length_pos_of_mem found
  · rw [List.filter_cons_of_neg marked]
    exact Nat.zero_le _

/-! ## Whole sources -/

/-- Marked lines may be looked for row by row. -/
theorem markedTexts_eq_flatMap (lines : List Line) :
    markedTexts lines = (Line.byRows lines).flatMap markedTexts := by
  have whole := Line.flatten_byRows lines
  calc markedTexts lines
      = markedTexts (Line.byRows lines).flatten := by rw [whole]
    _ = (Line.byRows lines).flatMap markedTexts := by
        simp only [markedTexts, List.map_flatten, List.filter_flatten, List.map_map,
          List.flatMap_def]
        rfl

/-- The texts that are read as assertions are those found in the rows of the lines. -/
theorem collect_eq_map_read (source : Text) :
    collect source =
      ((Line.byRows (Line.split source)).flatMap fun row =>
        [(Line.rowText row).trim].filter isMarked).map read := by
  rw [collect, Line.filter_trim_rows isMarked_nil]
  apply congrArg
  rw [List.map_eq_flatMap, List.filter_flatMap]

/-- The text that a result is about, without the mark. -/
def textOf : Except MalformedAssertion Assertion → Text
  | .ok assertion => assertion.text
  | .error error => error.text

/-- An assertion keeps the text that it was read from. -/
theorem text_of_ofText?
    {text : Text}
    {assertion : Assertion}
    (found : ofText? text = some assertion) :
    assertion.text = text := by
  simp only [ofText?, AssertionParts.assertion?, bind, Option.bind_eq_some_iff,
    Option.ite_none_right_eq_some, Option.some.injEq] at found
  obtain ⟨_, _, _, _, _, _, _, rfl⟩ := found
  rfl

/-- Whether a line is understood or not, its text is the one behind the mark. -/
theorem textOf_read (line : Text) :
    textOf (read line) = Text.dropMark '#' line.trim := by
  unfold read
  cases found : ofText? (Text.dropMark '#' line.trim) with
  | none => simp [found, textOf]
  | some assertion => simp [found, textOf, text_of_ofText? found]

/-- Nothing of a trimmed text with a mark is lost when it is read. -/
theorem cons_textOf_read
    {text : Text}
    (marked : isMarked text = true)
    (trimmed : text.trim = text) :
    '#' :: textOf (read text) = text := by
  obtain ⟨rest, rfl⟩ := isMarked_iff.mp marked
  rw [textOf_read, trimmed]
  rfl

/-- Different marked texts are read as different results. -/
theorem map_read_eq_iff
    {first second : List Text}
    (firstMarked : ∀ text ∈ first, isMarked text = true ∧ text.trim = text)
    (secondMarked : ∀ text ∈ second, isMarked text = true ∧ text.trim = text) :
    first.map read = second.map read ↔ first = second := by
  have restored
      {texts : List Text}
      (marked : ∀ text ∈ texts, isMarked text = true ∧ text.trim = text) :
      (texts.map read).map (fun result => '#' :: textOf result) = texts := by
    rw [List.map_map]
    exact (List.map_congr_left fun text member =>
      cons_textOf_read (marked text member).1 (marked text member).2).trans (List.map_id _)
  constructor
  · intro same
    rw [← restored firstMarked, same, restored secondMarked]
  · rintro rfl
    rfl

/-- Marked lines are listed trimmed. -/
theorem trimmed_of_mem_markedTexts
    {lines : List Line}
    {text : Text}
    (member : text ∈ markedTexts lines) :
    isMarked text = true ∧ text.trim = text := by
  obtain ⟨fromLine, marked⟩ := List.mem_filter.mp member
  obtain ⟨line, _, rfl⟩ := List.mem_map.mp fromLine
  exact ⟨marked, line.text.trim_trim⟩

theorem trimmed_of_mem_rows
    {rows : List (List Line)}
    {text : Text}
    (member : text ∈ rows.flatMap fun row => [(Line.rowText row).trim].filter isMarked) :
    isMarked text = true ∧ text.trim = text := by
  obtain ⟨row, _, fromRow⟩ := List.mem_flatMap.mp member
  obtain ⟨only, marked⟩ := List.mem_filter.mp fromRow
  rw [List.mem_singleton.mp only]
  exact ⟨List.mem_singleton.mp only ▸ marked, (Line.rowText row).trim_trim⟩

/-- The marked lines are what is collected exactly if each stands alone in its row. -/
theorem collect_eq_iff (source : Text) :
    collect source = (markedTexts (Line.split source)).map read ↔
      MarksStandAlone (Line.split source) := by
  rw [collect_eq_map_read,
    map_read_eq_iff (fun _ => trimmed_of_mem_rows) (fun _ => trimmed_of_mem_markedTexts),
    markedTexts_eq_flatMap, flatMap_eq_iff_of_length_le fun row member =>
      length_filter_rowText_le (Line.isRow_of_mem_byRows member)]
  constructor
  · intro same row member
    exact (filter_rowText_eq_iff (Line.isRow_of_mem_byRows member)).mp (same row member)
  · intro alone row member
    exact (filter_rowText_eq_iff (Line.isRow_of_mem_byRows member)).mpr (alone row member)

/-- Without lone carriage returns every line is alone in its row. -/
theorem marksStandAlone_of_noReturn
    {lines : List Line}
    (noReturn : ∀ line ∈ lines, line.ending ≠ .carriageReturn) :
    MarksStandAlone lines := by
  intro row inRows line member marked
  cases Line.isRow_of_mem_byRows inRows with
  | last only =>
      obtain rfl := List.mem_singleton.mp member
      exact List.filter_cons_of_pos (by simp [ne_nil_of_isMarked marked])
  | @more first rest returns _ =>
      have inLines : first ∈ (Line.byRows lines).flatten :=
        List.mem_flatten.mpr ⟨_, inRows, List.mem_cons_self ..⟩
      rw [Line.flatten_byRows] at inLines
      exact absurd returns (noReturn first inLines)

end Assertion

/-! ## Lines that say nothing -/

/--
A line that says nothing can be replaced by another one: the items stay, and their line
numbers as well unless the line is emptied.
-/
theorem Item.ofText_replaced
    {source : Text}
    {items : List Item}
    (accepted : ofText source = .ok items)
    {before after : List Line}
    {line : Line}
    {text : Text}
    (lines : Line.split source = before ++ line :: after)
    (silent : Content.ofLine? line.text = some .silent)
    (oneLine : text.IsOneLine)
    (silentText : Content.ofLine? text = some .silent) :
    ∃ others,
      ofText (Line.join (before ++ { line with text } :: after)) = .ok others ∧
        others.map unnumbered = items.map unnumbered ∧
        (text ≠ [] → others = items) := by
  obtain ⟨contents, reads, rfl⟩ := ofText_eq_ok_iff.mp accepted
  have areLines := Line.areLines_split source
  rw [lines] at areLines reads
  rcases areLines.split_replaced oneLine with kept | ⟨emptied, earlier, last, rfl, joined⟩
  · refine ⟨ofContents 1 contents, ofText_of_contents ?_, rfl, fun _ => rfl⟩
    rw [kept]
    simpa [silent, silentText] using reads
  · rw [List.map_append, List.map_cons, eq_comm, List.map_eq_append_iff] at reads
    obtain ⟨first, rest, rfl, readsFirst, readsRest⟩ := reads
    obtain ⟨content, final, rfl, readsLine, readsFinal⟩ := List.map_eq_cons_iff.mp readsRest
    obtain rfl : content = .silent := Option.some.inj (readsLine.trans silent)
    refine ⟨ofContents 1 (first ++ final), ofText_of_contents ?_, ?_, absurd emptied⟩
    · rw [joined, List.map_append, List.map_append, readsFirst, readsFinal]
      simp
    · rw [map_unnumbered_ofContents, map_unnumbered_ofContents, List.flatMap_append,
        List.flatMap_append, List.flatMap_cons]
      rfl

namespace Assertion

/--
The lines of a source that are meant as assertions are what is collected, in order and
without omission, exactly if each of them stands alone in its row. To the assembler such
a line is a comment: it says nothing, and with blanks in its place the source has the same
items, instructions and symbol indices.
-/
theorem collect_agrees_with_lines
    {source : Text}
    {items : List Item}
    (accepted : Item.ofText source = .ok items) :
    (collect source = (markedTexts (Line.split source)).map read ↔
        MarksStandAlone (Line.split source)) ∧
      ∀ before line after,
        Line.split source = before ++ line :: after →
        isMarked line.text.trim = true →
          Content.ofLine? line.text = some .silent ∧
            ∀ blanks : Text,
              Grammar.Blanks blanks →
                ∃ others,
                  Item.ofText (Line.join (before ++ { line with text := blanks } :: after)) =
                      .ok others ∧
                    others.map Item.unnumbered = items.map Item.unnumbered ∧
                    (blanks ≠ [] → others = items) ∧
                    (assemble
                        (Line.join
                          (before ++ { line with text := blanks } :: after))).toOption.map
                        Program.code =
                      (assemble source).toOption.map Program.code := by
  refine ⟨collect_eq_iff source, fun before line after lines marked => ?_⟩
  obtain ⟨contents, reads⟩ := Item.contents_of_ofText accepted
  have read : Content.ofLine? line.text ∈ contents.map some := by
    rw [← reads, lines]
    exact List.mem_map_of_mem (by simp)
  obtain ⟨content, _, found⟩ := List.mem_map.mp read
  have silent : Content.ofLine? line.text = some .silent :=
    Content.ofLine?_eq_some_iff.mpr
      (Content.silent_of_marked (Content.ofLine?_eq_some_iff.mp found.symm) marked)
  refine ⟨silent, fun blanks areBlanks => ?_⟩
  have oneLine : blanks.IsOneLine := by
    intro c member
    exact ⟨Text.ne_of_class (areBlanks c member) (by decide),
      Text.ne_of_class (areBlanks c member) (by decide)⟩
  have blanked : Content.ofLine? blanks = some .silent :=
    Content.ofLine?_eq_some_iff.mpr (Content.silent_of_blanks areBlanks)
  obtain ⟨others, readAgain, sameItems, sameNumbers⟩ :=
    Item.ofText_replaced accepted lines silent oneLine blanked
  refine ⟨others, readAgain, sameItems, sameNumbers, ?_⟩
  rw [assemble_of_ofText readAgain, assemble_of_ofText accepted]
  exact Assembly.code_ofItems_of_unnumbered sameItems.symm

/-- A source with an assertion between a lone carriage return and a line feed. -/
def annotated : Text :=
  Text.ofString "\r #assert(sim.inspect_mem(rf)[8] == 1) \nhere: addi $t0, $zero, 1\n"

/-- The assertion is collected, and without it the source has the same code. -/
theorem annotated_agrees :
    collect annotated =
        [.ok ⟨.registers, 8, 1, Text.ofString "assert(sim.inspect_mem(rf)[8] == 1)"⟩] ∧
      (assemble (Text.ofString "\r\nhere: addi $t0, $zero, 1\n")).toOption.map Program.code =
        (assemble annotated).toOption.map Program.code := by
  obtain ⟨items, accepted⟩ :=
    exists_eq_ok_of_isOk (by decide +kernel : (Item.ofText annotated).isOk = true)
  obtain ⟨agrees, comments⟩ := collect_agrees_with_lines accepted
  have alone : MarksStandAlone (Line.split annotated) := by
    decide +kernel
  have lines :
      Line.split annotated =
        [⟨[], .carriageReturn⟩] ++
          ⟨Text.ofString " #assert(sim.inspect_mem(rf)[8] == 1) ", .lineFeed⟩ ::
            [⟨Text.ofString "here: addi $t0, $zero, 1", .lineFeed⟩, ⟨[], .endOfText⟩] := by
    decide +kernel
  obtain ⟨_, blanked⟩ := comments _ _ _ lines (by decide +kernel)
  obtain ⟨_, _, _, _, sameCode⟩ := blanked [] Grammar.Blanks.nil
  refine ⟨(agrees.mpr alone).trans (by decide +kernel), ?_⟩
  calc (assemble (Text.ofString "\r\nhere: addi $t0, $zero, 1\n")).toOption.map Program.code
      = _ := congrArg (fun text => (assemble text).toOption.map Program.code) (by decide +kernel)
    _ = (assemble annotated).toOption.map Program.code := sameCode

/-- A source with an assertion on its second line, which only a carriage return separates. -/
def returned : Text :=
  Text.ofString "addi $t0, $zero, 1\r#assert(sim.inspect_mem(rf)[8] == 1)"

/-- The assertion is a line of its own to the assembler, but it is not collected. -/
theorem returned_disagrees :
    (∃ items, Item.ofText returned = .ok items) ∧
      collect returned = [] ∧
      (markedTexts (Line.split returned)).map read =
        [.ok ⟨.registers, 8, 1, Text.ofString "assert(sim.inspect_mem(rf)[8] == 1)"⟩] := by
  refine ⟨exists_eq_ok_of_isOk (by decide +kernel), ?_, ?_⟩
  · decide +kernel
  · decide +kernel

end Assertion

end TinyMips
