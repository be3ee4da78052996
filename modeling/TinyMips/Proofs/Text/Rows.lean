import TinyMips.Proofs.Text.Line
import TinyMips.Proofs.Text.Trim

namespace TinyMips

/-!
# Rows and the lines in them

Line feeds alone separate rows, and lone carriage returns separate lines as well. So
a row holds one line, or several with lone carriage returns between them.
-/

namespace Text

/-! ## Rows of a text -/

/-- The rows that line feeds end, each without the carriage return right before its line feed. -/
inductive AreRows : Text → List Text → Prop where
  | nothing :
      AreRows [] []
  | final
      {row : Text}
      (nonempty : row ≠ [])
      (noFeed : '\n' ∉ row) :
      AreRows row [row]
  | lineFeed
      {row later : Text}
      {rows : List Text}
      (noFeed : '\n' ∉ row)
      (noReturn : row.getLast? ≠ some '\r')
      (areRows : AreRows later rows) :
      AreRows (row ++ '\n' :: later) (row :: rows)
  | returnFeed
      {row later : Text}
      {rows : List Text}
      (noFeed : '\n' ∉ row)
      (areRows : AreRows later rows) :
      AreRows (row ++ '\r' :: '\n' :: later) (row :: rows)

theorem prependToRows_ne_nil
    (c : Char)
    (rows : List Text) :
    prependToRows c rows ≠ [] := by
  cases rows <;> simp only [prependToRows] <;> split <;> simp

/-- While a text is cut into rows there is always a row to go on with. -/
theorem foldr_prependToRows_ne_nil (text : Text) : text.foldr prependToRows [[]] ≠ [] := by
  cases text with
  | nil => simp
  | cons c text => exact prependToRows_ne_nil c _

/-- Up to its first line feed a text is one row. -/
theorem rows_append_feed
    {row : Text}
    (noFeed : '\n' ∉ row)
    (later : Text) :
    rows (row ++ '\n' :: later) =
      (if row.getLast? = some '\r' then row.dropLast else row) :: rows later := by
  have nonempty := foldr_prependToRows_ne_nil later
  rw [List.append_cons, rows, List.foldr_append,
    foldr_prependToRows_terminated noFeed nonempty, List.dropLast_cons_of_ne_nil nonempty,
    List.getLast?_cons_of_ne_nil nonempty, rows]
  cases (later.foldr prependToRows [[]]).getLast? with
  | none => rfl
  | some final => cases final <;> rfl

/-- A text without line feeds is its only row. -/
theorem rows_of_noFeed
    {row : Text}
    (nonempty : row ≠ [])
    (noFeed : '\n' ∉ row) :
    rows row = [row] := by
  have alone : row.foldr prependToRows [[]] = [row] := by
    clear nonempty
    induction row with
    | nil =>
        rfl
    | cons c row inductionHypothesis =>
        obtain ⟨notFeed, rest⟩ := List.ne_and_not_mem_of_not_mem_cons noFeed
        simp [inductionHypothesis rest, prependToRows, notFeed.symm]
  obtain ⟨c, rest, rfl⟩ := List.exists_cons_of_ne_nil nonempty
  rw [rows, alone]
  rfl

/-- The rows of a text are unique, and they are those that it is cut into. -/
theorem AreRows.eq_rows
    {text : Text}
    {others : List Text}
    (areRows : AreRows text others) :
    others = text.rows := by
  induction areRows with
  | nothing =>
      rfl
  | final nonempty noFeed =>
      exact (rows_of_noFeed nonempty noFeed).symm
  | lineFeed noFeed noReturn _ inductionHypothesis =>
      rw [rows_append_feed noFeed, if_neg noReturn, inductionHypothesis]
  | @returnFeed row later rows noFeed _ inductionHypothesis =>
      have noFeedBefore : '\n' ∉ row ++ ['\r'] := by
        simpa using noFeed
      rw [List.append_cons, rows_append_feed noFeedBefore, inductionHypothesis]
      simp

/-- Up to its first line feed a text is a row, and what is after it is shorter. -/
theorem areRows_rows (text : Text) : AreRows text text.rows := by
  by_cases feed : '\n' ∈ text
  · obtain ⟨row, later, rfl, noFeed⟩ := List.eq_append_cons_of_mem feed
    have areRows := areRows_rows later
    rw [rows_append_feed noFeed]
    by_cases returns : row.getLast? = some '\r'
    · obtain ⟨kept, rfl⟩ := List.getLast?_eq_some_iff.mp returns
      rw [if_pos returns, List.dropLast_concat, ← List.append_cons]
      exact .returnFeed (by simpa using noFeed) areRows
    · rw [if_neg returns]
      exact .lineFeed noFeed returns areRows
  · by_cases nonempty : text = []
    · subst nonempty
      exact .nothing
    · rw [rows_of_noFeed nonempty feed]
      exact .final nonempty feed
termination_by text.length

/-- Every text has rows, and no others. -/
theorem areRows_iff
    {text : Text}
    {others : List Text} :
    AreRows text others ↔ others = text.rows := by
  constructor
  · exact AreRows.eq_rows
  · rintro rfl
    exact areRows_rows text

end Text

namespace Line

/-! ## Lines in rows -/

/-- Put a line in front of lines that are already in rows. -/
def prependToRows (line : Line) : List (List Line) → List (List Line)
  | [] => [[line]]
  | row :: rows =>
      if line.ending = .carriageReturn then (line :: row) :: rows else [line] :: row :: rows

/-- The rows that lines are in. -/
def byRows (lines : List Line) : List (List Line) :=
  lines.foldr prependToRows []

theorem byRows_cons
    (line : Line)
    (lines : List Line) :
    byRows (line :: lines) = prependToRows line (byRows lines) :=
  rfl

/-- The first row begins with the first line, and its text does not matter to the rows. -/
theorem exists_byRows_cons
    (ending : LineEnding)
    (lines : List Line) :
    ∃ row rows,
      ∀ text, byRows (⟨text, ending⟩ :: lines) = (⟨text, ending⟩ :: row) :: rows := by
  simp only [byRows_cons]
  cases byRows lines with
  | nil => exact ⟨[], [], fun _ => rfl⟩
  | cons row rows =>
      by_cases returns : ending = .carriageReturn
      · exact ⟨row, rows, fun _ => if_pos returns⟩
      · exact ⟨[], row :: rows, fun _ => if_neg returns⟩

/-- A line in front of some rows comes to the front of their lines. -/
theorem flatten_prependToRows
    (line : Line)
    (rows : List (List Line)) :
    (prependToRows line rows).flatten = line :: rows.flatten := by
  cases rows with
  | nil => rfl
  | cons row rows =>
      simp only [prependToRows]
      split <;> rfl

/-- Grouping lines by rows neither loses a line nor moves one. -/
theorem flatten_byRows (lines : List Line) : (byRows lines).flatten = lines := by
  induction lines with
  | nil =>
      rfl
  | cons line lines inductionHypothesis =>
      rw [byRows_cons, flatten_prependToRows, inductionHypothesis]

/-- Lines with lone carriage returns between them. -/
inductive IsRow : List Line → Prop where
  | last (line : Line) :
      IsRow [line]
  | more
      {line : Line}
      {row : List Line}
      (returns : line.ending = .carriageReturn)
      (isRow : IsRow row) :
      IsRow (line :: row)

/-- Each group of lines is a row: only its last line may end at a line feed. -/
theorem isRow_of_mem_byRows
    {lines row : List Line}
    (member : row ∈ byRows lines) :
    IsRow row := by
  induction lines generalizing row with
  | nil =>
      simp [byRows] at member
  | cons line lines inductionHypothesis =>
      rw [byRows_cons] at member
      cases later : byRows lines with
      | nil =>
          obtain rfl : row = [line] := by simpa [prependToRows, later] using member
          exact .last line
      | cons first rows =>
          rw [later] at inductionHypothesis
          rw [later, prependToRows] at member
          split at member
          · rename_i returns
            rcases List.mem_cons.mp member with rfl | other
            · exact .more returns (inductionHypothesis (List.mem_cons_self ..))
            · exact inductionHypothesis (List.mem_cons_of_mem _ other)
          · rcases List.mem_cons.mp member with rfl | other
            · exact .last line
            · exact inductionHypothesis other

/-! ## The texts of rows -/

/-- The text of a row: its lines and the carriage returns that end them. -/
def rowText (row : List Line) : Text :=
  row.flatMap fun line => line.text ++ line.ending.text.filter (· ≠ '\n')

theorem rowText_cons
    (line : Line)
    (row : List Line) :
    rowText (line :: row) =
      line.text ++ (line.ending.text.filter (· ≠ '\n') ++ rowText row) := by
  simp [rowText]

/-- A character in front of a text comes to the same place in the rows as in the lines. -/
theorem rowText_byRows_prepend
    (c : Char)
    {lines : List Line}
    (nonempty : lines ≠ []) :
    (byRows (prepend c lines)).map rowText =
      Text.prependToRows c ((byRows lines).map rowText) := by
  obtain ⟨⟨text, ending⟩, lines, rfl⟩ := List.exists_cons_of_ne_nil nonempty
  obtain ⟨row, rows, shape⟩ := exists_byRows_cons ending lines
  by_cases feed : c = '\n'
  · subst feed
    rw [prepend, if_pos rfl, byRows_cons, shape]
    rfl
  by_cases carriage : c = '\r'
  · subst carriage
    by_cases emptied : (⟨text, ending⟩ : Line) = ⟨[], .lineFeed⟩
    · obtain ⟨rfl, rfl⟩ := Line.mk.inj emptied
      rw [prepend, if_neg feed, if_pos rfl, if_pos rfl, byRows_cons, byRows_cons]
      cases byRows lines <;> rfl
    · rw [prepend, if_neg feed, if_pos rfl, if_neg emptied, byRows_cons, shape]
      rfl
  · rw [prepend, if_neg feed, if_neg carriage, shape, shape]
    simp [Text.prependToRows, feed, rowText]

/-- What counts line feeds alone sees the rows of the lines. -/
theorem foldr_prependToRows (text : Text) :
    text.foldr Text.prependToRows [[]] = (byRows (split text)).map rowText := by
  induction text with
  | nil =>
      rfl
  | cons c text inductionHypothesis =>
      rw [List.foldr_cons, inductionHypothesis, split_cons,
        rowText_byRows_prepend c (split_ne_nil text)]

/-- A carriage return at the end of a row is trimmed away in any case. -/
theorem trim_of_return (row : Text) :
    Text.trim (if row.getLast? = some '\r' then row.dropLast else row) = row.trim := by
  split
  · rename_i returns
    obtain ⟨kept, rfl⟩ := List.getLast?_eq_some_iff.mp returns
    rw [List.dropLast_concat]
    exact (Text.trim_append_white kept (by decide)).symm
  · rfl

/--
What is kept of the trimmed rows of a text is what is kept of the rows of its lines:
trimming hides how the rows end, and an empty last row is not kept anyway.
-/
theorem filter_trim_rows
    {keeps : Text → Bool}
    (emptyGoes : keeps [] = false)
    (text : Text) :
    (text.rows.map Text.trim).filter keeps =
      ((byRows (split text)).map fun row => (rowText row).trim).filter keeps := by
  have nonempty : (byRows (split text)).map rowText ≠ [] := by
    have whole := flatten_byRows (split text)
    intro nothing
    rw [List.map_eq_nil_iff.mp nothing] at whole
    exact split_ne_nil text whole.symm
  have trimmed :
      (byRows (split text)).map (fun row => (rowText row).trim) =
        ((byRows (split text)).map rowText).map Text.trim := by
    simp
  rw [trimmed, Text.rows, foldr_prependToRows]
  generalize (byRows (split text)).map rowText = pieces at nonempty
  obtain ⟨ended, final, rfl⟩ := (List.eq_nil_or_concat pieces).resolve_left nonempty
  have returns :
      (ended.map fun row => if row.getLast? = some '\r' then row.dropLast else row).map
          Text.trim =
        ended.map Text.trim := by
    simp [trim_of_return]
  cases final with
  | nil =>
      have nothing : Text.trim [] = [] := rfl
      simp [returns, nothing, emptyGoes]
  | cons c final =>
      simp [returns]

end Line

end TinyMips
