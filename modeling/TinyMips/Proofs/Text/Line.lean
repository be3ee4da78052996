import TinyMips.Text.Line

namespace TinyMips

/-!
# Lines that are put together and split again

Rows without line breaks in them are found again when the text that ends each of
them with a line feed is split. No character is lost when a text is split, and the
other lines of a text are found again in it when one of them is replaced.
-/

namespace Text

/-- A text has no line breaks in it. -/
def IsOneLine (text : Text) : Prop :=
  ∀ c ∈ text, c ≠ '\n' ∧ c ≠ '\r'

instance (text : Text) : Decidable text.IsOneLine :=
  List.decidableBAll (fun c => c ≠ '\n' ∧ c ≠ '\r') text

@[simp]
theorem isOneLine_nil :
    IsOneLine [] := by
  simp [IsOneLine]

/-- A line is free of both characters that end one. -/
@[simp]
theorem isOneLine_cons_iff
    {c : Char}
    {text : Text} :
    IsOneLine (c :: text) ↔ (c ≠ '\n' ∧ c ≠ '\r') ∧ text.IsOneLine := by
  simp [IsOneLine]

@[simp]
theorem isOneLine_append_iff
    {first second : Text} :
    IsOneLine (first ++ second) ↔ first.IsOneLine ∧ second.IsOneLine :=
  List.forall_mem_append

/-! ## Rows -/

/-- A row that a line feed ends does not touch the rows after it. -/
theorem foldr_prependToRows_terminated
    {row : Text}
    (noFeed : '\n' ∉ row)
    {later : List Text}
    (nonempty : later ≠ []) :
    (row ++ ['\n']).foldr prependToRows later = row :: later := by
  induction row with
  | nil =>
      cases later with
      | nil => exact absurd rfl nonempty
      | cons next rest => rfl
  | cons c row inductionHypothesis =>
      obtain ⟨notFeed, rest⟩ := List.ne_and_not_mem_of_not_mem_cons noFeed
      rw [List.cons_append, List.foldr_cons, inductionHypothesis rest]
      simp [prependToRows, notFeed.symm]

/-- Rows that are ended by line feeds are found again, with an empty one behind them. -/
theorem foldr_prependToRows_rows
    {rows : List Text}
    (oneLine : ∀ row ∈ rows, row.IsOneLine) :
    (rows.flatMap fun row => row ++ ['\n']).foldr prependToRows [[]] = rows ++ [[]] := by
  induction rows with
  | nil =>
      rfl
  | cons row rows inductionHypothesis =>
      have later :=
        inductionHypothesis fun other member => oneLine other (by simp [member])
      have noFeed : '\n' ∉ row := fun feed => (oneLine row (by simp) _ feed).1 rfl
      rw [List.flatMap_cons, List.foldr_append, later,
        foldr_prependToRows_terminated noFeed (by simp)]
      rfl

/-- Rows that each end with a line feed are the rows of the text they make up. -/
theorem rows_of_terminated
    {rows : List Text}
    (oneLine : ∀ row ∈ rows, row.IsOneLine) :
    Text.rows (rows.flatMap fun row => row ++ ['\n']) = rows := by
  have kept
      (row : Text)
      (member : row ∈ rows) :
      (if row.getLast? = some '\r' then row.dropLast else row) = row := by
    apply if_neg
    intro last
    exact (oneLine row member '\r' (List.mem_of_getLast? last)).2 rfl
  simp only [Text.rows, foldr_prependToRows_rows oneLine, List.dropLast_concat,
    List.getLast?_concat, List.map_congr_left kept, List.map_id']

/-- What is printed in rows has the printed texts as the rows of the text it makes up. -/
theorem rows_of_printed
    {α : Type}
    {print : α → Text}
    {items : List α}
    (oneLine : ∀ item ∈ items, (print item).IsOneLine) :
    Text.rows (items.flatMap fun item => print item ++ ['\n']) = items.map print := by
  rw [← List.flatMap_map print fun row => row ++ ['\n']]
  apply rows_of_terminated
  simpa using oneLine

end Text

namespace Line

/-! ## Lines -/

/-- A character in front makes a line where there was none. -/
theorem prepend_ne_nil
    (c : Char)
    (lines : List Line) :
    prepend c lines ≠ [] := by
  cases lines with
  | nil => simp [prepend]
  | cons line lines =>
      simp only [prepend]
      split
      · simp
      · split
        · split <;> simp
        · simp

theorem split_cons
    (c : Char)
    (text : Text) :
    split (c :: text) = prepend c (split text) :=
  rfl

theorem split_ne_nil
    (text : Text) :
    split text ≠ [] := by
  cases text with
  | nil => simp [split]
  | cons c text => exact prepend_ne_nil c (split text)

/-- A line feed at the front ends an empty line. -/
theorem split_lineFeed
    (text : Text) :
    split ('\n' :: text) = ⟨[], .lineFeed⟩ :: split text := by
  rw [split_cons]
  cases later : split text with
  | nil => exact absurd later (split_ne_nil text)
  | cons line lines => rfl

/-- A line feed behind a carriage return belongs to the same line ending. -/
theorem split_returnFeed
    (text : Text) :
    split ('\r' :: '\n' :: text) = ⟨[], .returnFeed⟩ :: split text := by
  rw [split_cons, split_lineFeed]
  rfl

/-- Only a line feed makes an empty line that a line feed ends. -/
theorem prepend_ne_lineFeed
    {c : Char}
    (notFeed : c ≠ '\n')
    (lines others : List Line) :
    prepend c lines ≠ ⟨[], .lineFeed⟩ :: others := by
  cases lines with
  | nil => simp [prepend]
  | cons line lines =>
      simp only [prepend, if_neg notFeed]
      split
      · split <;> simp
      · simp

/-- A carriage return without a line feed behind it ends a line by itself. -/
theorem split_carriageReturn
    {text : Text}
    (noFeed : ∀ rest, text ≠ '\n' :: rest) :
    split ('\r' :: text) = ⟨[], .carriageReturn⟩ :: split text := by
  have notEmptied : ∀ lines, split text ≠ ⟨[], .lineFeed⟩ :: lines := by
    cases text with
    | nil =>
        simp [split]
    | cons c rest =>
        have notFeed : c ≠ '\n' := by
          rintro rfl
          exact noFeed rest rfl
        exact prepend_ne_lineFeed notFeed (split rest)
  rw [split_cons]
  cases later : split text with
  | nil => exact absurd later (split_ne_nil text)
  | cons line lines =>
      have kept : line ≠ ⟨[], .lineFeed⟩ := by
        rintro rfl
        exact notEmptied lines later
      simp [prepend, kept]

/-- Text without line breaks comes to stand in front of the first line after it. -/
theorem split_append
    {row : Text}
    (oneLine : row.IsOneLine)
    {later : Text}
    {line : Line}
    {lines : List Line}
    (laterSplit : split later = line :: lines) :
    split (row ++ later) = { line with text := row ++ line.text } :: lines := by
  induction row with
  | nil =>
      exact laterSplit
  | cons c row inductionHypothesis =>
      obtain ⟨⟨notFeed, notReturn⟩, rest⟩ := Text.isOneLine_cons_iff.mp oneLine
      rw [List.cons_append, split_cons, inductionHypothesis rest]
      simp [prepend, notFeed, notReturn]

/-- A text without line breaks is its only line. -/
theorem split_of_isOneLine
    {row : Text}
    (oneLine : row.IsOneLine) :
    split row = [⟨row, .endOfText⟩] := by
  have alone := split_append oneLine (rfl : split [] = [⟨[], .endOfText⟩])
  simpa using alone

/-- The lines of rows that line feeds end, and of a last row that the end of the text ends. -/
theorem split_rows
    {rows : List Text}
    (oneLine : ∀ row ∈ rows, row.IsOneLine)
    {final : Text}
    (finalOneLine : final.IsOneLine) :
    split ((rows.flatMap fun row => row ++ ['\n']) ++ final) =
      rows.map (⟨·, .lineFeed⟩) ++ [⟨final, .endOfText⟩] := by
  induction rows with
  | nil =>
      exact split_of_isOneLine finalOneLine
  | cons row rows inductionHypothesis =>
      have later :=
        inductionHypothesis fun other member => oneLine other (by simp [member])
      have next :=
        split_lineFeed ((rows.flatMap fun row => row ++ ['\n']) ++ final)
      have first := split_append (oneLine row (by simp)) next
      rw [later] at first
      simpa using first

/-! ## Putting lines together -/

theorem join_cons
    (line : Line)
    (lines : List Line) :
    join (line :: lines) = line.text ++ (line.ending.text ++ join lines) := by
  simp [join]

/-- A character in front of the first line comes to the front of the joined text. -/
theorem join_prepend
    (c : Char)
    (lines : List Line) :
    join (prepend c lines) = c :: join lines := by
  cases lines with
  | nil =>
      rfl
  | cons line lines =>
      simp only [prepend]
      split
      · rename_i feed
        rw [feed]
        rfl
      · split
        · rename_i carriage
          rw [carriage]
          split
          · rename_i emptied
            rw [emptied]
            rfl
          · rfl
        · rfl

/-- No character is lost when a text is split. -/
theorem join_split (text : Text) : join (split text) = text := by
  induction text with
  | nil =>
      rfl
  | cons c text inductionHypothesis =>
      rw [split_cons, join_prepend, inductionHypothesis]

/--
Lines that a text can be split into: each ends somehow and the last one with the text,
and no lone carriage return comes right before a line feed.
-/
inductive AreLines : List Line → Prop where
  | final
      {text : Text}
      (oneLine : text.IsOneLine) :
      AreLines [⟨text, .endOfText⟩]
  | more
      {line : Line}
      {lines : List Line}
      (oneLine : line.text.IsOneLine)
      (ended : line.ending ≠ .endOfText)
      (apart : line.ending = .carriageReturn → ∀ others, lines ≠ ⟨[], .lineFeed⟩ :: others)
      (areLines : AreLines lines) :
      AreLines (line :: lines)

/-- A character in front of the first line is part of it, unless it breaks lines. -/
theorem AreLines.prepend
    {lines : List Line}
    (areLines : AreLines lines)
    (c : Char) :
    AreLines (prepend c lines) := by
  cases lines with
  | nil =>
      cases areLines
  | cons line lines =>
      simp only [Line.prepend]
      split
      · exact .more Text.isOneLine_nil (by simp) (by simp) areLines
      · rename_i notFeed
        split
        · split
          · rename_i emptied
            subst emptied
            cases areLines with
            | more _ _ _ areLines =>
                exact .more Text.isOneLine_nil (by simp) (by simp) areLines
          · rename_i kept
            exact .more Text.isOneLine_nil (by simp) (by simp [kept]) areLines
        · rename_i notReturn
          have noBreak : c ≠ '\n' ∧ c ≠ '\r' := ⟨notFeed, notReturn⟩
          cases areLines with
          | final oneLine =>
              exact .final (Text.isOneLine_cons_iff.mpr ⟨noBreak, oneLine⟩)
          | more oneLine ended apart areLines =>
              exact .more (Text.isOneLine_cons_iff.mpr ⟨noBreak, oneLine⟩) ended apart areLines

/-- What a text is split into are lines. -/
theorem areLines_split (text : Text) : AreLines (split text) := by
  induction text with
  | nil => exact .final Text.isOneLine_nil
  | cons c text inductionHypothesis => exact inductionHypothesis.prepend c

/-- Only an empty line that a line feed ends makes a text begin with a line feed. -/
theorem AreLines.noFeed
    {lines : List Line}
    (areLines : AreLines lines)
    (apart : ∀ others, lines ≠ ⟨[], .lineFeed⟩ :: others)
    (rest : Text) :
    join lines ≠ '\n' :: rest := by
  cases areLines with
  | @final text oneLine =>
      cases text with
      | nil => simp [join, LineEnding.text]
      | cons c text => simp [join, (Text.isOneLine_cons_iff.mp oneLine).1.1]
  | @more line lines oneLine ended _ _ =>
      obtain ⟨text, ending⟩ := line
      rw [join_cons]
      cases text with
      | nil => cases ending <;> simp [LineEnding.text] at apart ended ⊢
      | cons c text => simp [(Text.isOneLine_cons_iff.mp oneLine).1.1]

/-- Lines that a text can be split into are found again in the text they make up. -/
theorem AreLines.split_join
    {lines : List Line}
    (areLines : AreLines lines) :
    split (join lines) = lines := by
  induction areLines with
  | final oneLine =>
      simpa [join, LineEnding.text] using split_of_isOneLine oneLine
  | @more line lines oneLine ended apart areLines inductionHypothesis =>
      obtain ⟨text, ending⟩ := line
      have ending_split :
          split (ending.text ++ join lines) = ⟨[], ending⟩ :: lines := by
        cases ending with
        | lineFeed =>
            exact (split_lineFeed (join lines)).trans (by rw [inductionHypothesis])
        | returnFeed =>
            exact (split_returnFeed (join lines)).trans (by rw [inductionHypothesis])
        | carriageReturn =>
            exact (split_carriageReturn (areLines.noFeed (apart rfl))).trans
              (by rw [inductionHypothesis])
        | endOfText => exact absurd rfl ended
      rw [join_cons, split_append oneLine ending_split, List.append_nil]

/-- From any line on, lines are lines. -/
theorem AreLines.of_append
    {before after : List Line}
    {line : Line}
    (areLines : AreLines (before ++ line :: after)) :
    AreLines (line :: after) := by
  induction before with
  | nil =>
      exact areLines
  | cons first before inductionHypothesis =>
      rw [List.cons_append] at areLines
      generalize shape : before ++ line :: after = lines at areLines
      cases areLines with
      | final => simp at shape
      | more _ _ _ areLines => exact inductionHypothesis (shape ▸ areLines)

/-- A line before another one is ended by a line break. -/
theorem AreLines.ended_before
    {before after : List Line}
    {line : Line}
    (areLines : AreLines (before ++ line :: after)) :
    ∀ earlier ∈ before, earlier.text.IsOneLine ∧ earlier.ending ≠ .endOfText := by
  induction before with
  | nil =>
      simp
  | cons first before inductionHypothesis =>
      rw [List.cons_append] at areLines
      generalize shape : before ++ line :: after = lines at areLines
      cases areLines with
      | final => simp at shape
      | more oneLine ended _ areLines =>
          exact List.forall_mem_cons.mpr ⟨⟨oneLine, ended⟩, inductionHypothesis (shape ▸ areLines)⟩

/-! ## Replacing a line -/

/--
The lines after some others can be replaced, unless a line feed would come right after
a lone carriage return.
-/
theorem AreLines.replace
    {before after others : List Line}
    {line : Line}
    (areLines : AreLines (before ++ line :: after))
    (areOthers : AreLines others)
    (apart :
      ∀ earlier ∈ before.getLast?,
        earlier.ending = .carriageReturn → ∀ rest, others ≠ ⟨[], .lineFeed⟩ :: rest) :
    AreLines (before ++ others) := by
  induction before with
  | nil =>
      exact areOthers
  | cons first before inductionHypothesis =>
      rw [List.cons_append] at areLines
      generalize shape : before ++ line :: after = lines at areLines
      cases areLines with
      | final => simp at shape
      | more oneLine ended kept areLines =>
          subst shape
          cases before with
          | nil => exact .more oneLine ended (apart first rfl) areOthers
          | cons second before =>
              have later := inductionHypothesis areLines (by rwa [List.getLast?_cons_cons] at apart)
              refine .more oneLine ended (fun carriage rest emptied => ?_) later
              obtain ⟨sameLine, _⟩ := List.cons.inj emptied
              exact kept carriage _ (by rw [List.cons_append, sameLine])

/-- An empty line that a line feed ends is no line after a lone carriage return. -/
theorem join_emptied
    {before after : List Line}
    {earlier : Line}
    (carriage : earlier.ending = .carriageReturn) :
    join (before ++ earlier :: ⟨[], .lineFeed⟩ :: after) =
      join (before ++ { earlier with ending := .returnFeed } :: after) := by
  simp [join, carriage, LineEnding.text]

/--
With another text on one of its lines, a text has the same other lines. The line itself
is lost if it is emptied between a lone carriage return and a line feed.
-/
theorem AreLines.split_replaced
    {before after : List Line}
    {line : Line}
    {text : Text}
    (areLines : AreLines (before ++ line :: after))
    (oneLine : text.IsOneLine) :
    split (join (before ++ { line with text } :: after)) = before ++ { line with text } :: after ∨
      text = [] ∧
        ∃ earlier last,
          before = earlier ++ [last] ∧
            split (join (before ++ { line with text } :: after)) =
              earlier ++ { last with ending := .returnFeed } :: after := by
  have replaced : AreLines ({ line with text } :: after) := by
    cases areLines.of_append with
    | final => exact .final oneLine
    | more _ ended kept areLines => exact .more oneLine ended kept areLines
  by_cases emptiesBetween :
      ∃ last ∈ before.getLast?,
        last.ending = .carriageReturn ∧ ({ line with text } : Line) = ⟨[], .lineFeed⟩
  · obtain ⟨last, isLast, carriage, emptied⟩ := emptiesBetween
    obtain ⟨earlier, rfl⟩ := List.getLast?_eq_some_iff.mp isLast
    refine .inr ⟨congrArg Line.text emptied, earlier, last, rfl, ?_⟩
    rw [List.append_assoc, List.singleton_append] at areLines
    rw [emptied, List.append_assoc, List.singleton_append, join_emptied carriage]
    refine (areLines.replace ?_ (by simp)).split_join
    cases areLines.of_append with
    | more lastOneLine _ _ _ =>
        cases emptied ▸ replaced with
        | more _ _ _ areAfter => exact .more lastOneLine (by simp) (by simp) areAfter
  · refine .inl (areLines.replace replaced fun last member carriage rest same => ?_).split_join
    exact emptiesBetween ⟨last, member, carriage, (List.cons.inj same).1⟩

/-! ## Lines that are not split yet -/

/-- Lines of which only the last one ends with the text. -/
inductive AreEnded : List Line → Prop where
  | final
      {text : Text}
      (oneLine : text.IsOneLine) :
      AreEnded [⟨text, .endOfText⟩]
  | more
      {line : Line}
      {lines : List Line}
      (oneLine : line.text.IsOneLine)
      (ended : line.ending ≠ .endOfText)
      (later : AreEnded lines) :
      AreEnded (line :: lines)

/-- Lines end where they should, with only the last one at the end of the text. -/
theorem AreLines.areEnded
    {lines : List Line}
    (areLines : AreLines lines) :
    AreEnded lines := by
  induction areLines with
  | final oneLine => exact .final oneLine
  | more oneLine ended _ _ inductionHypothesis => exact .more oneLine ended inductionHypothesis

/-- Other text on a line leaves the endings as they are. -/
theorem AreEnded.withText
    {line : Line}
    {after : List Line}
    (areEnded : AreEnded (line :: after))
    {text : Text}
    (oneLine : text.IsOneLine) :
    AreEnded ({ line with text } :: after) := by
  cases areEnded with
  | final _ => exact .final oneLine
  | more _ ended later => exact .more oneLine ended later

/-- The lines after some others can be replaced. -/
theorem AreEnded.replace
    {before after others : List Line}
    {line : Line}
    (areEnded : AreEnded (before ++ line :: after))
    (replaced : AreEnded (line :: after) → AreEnded others) :
    AreEnded (before ++ others) := by
  induction before with
  | nil =>
      exact replaced areEnded
  | cons first before inductionHypothesis =>
      rw [List.cons_append] at areEnded
      generalize shape : before ++ line :: after = lines at areEnded
      cases areEnded with
      | final => simp at shape
      | more oneLine ended later =>
          subst shape
          exact .more oneLine ended (inductionHypothesis later)

/-- There is no line break within a line. -/
theorem AreEnded.isOneLine
    {line : Line}
    {after : List Line}
    (areEnded : AreEnded (line :: after)) :
    line.text.IsOneLine := by
  cases areEnded with
  | final oneLine => exact oneLine
  | more oneLine _ _ => exact oneLine

/-- The end of a line ends it, but if it is a lone carriage return, a line feed may join it. -/
theorem split_ending
    {ending : LineEnding}
    (ended : ending ≠ .endOfText)
    (later : Text) :
    ∃ kept others,
      split (ending.text ++ later) = ⟨[], kept⟩ :: others ∧
        (split later = others ∨ split later = ⟨[], .lineFeed⟩ :: others) := by
  cases ending with
  | lineFeed => exact ⟨_, _, split_lineFeed later, .inl rfl⟩
  | returnFeed => exact ⟨_, _, split_returnFeed later, .inl rfl⟩
  | carriageReturn =>
      by_cases feed : ∃ rest, later = '\n' :: rest
      · obtain ⟨rest, rfl⟩ := feed
        exact ⟨_, _, split_returnFeed rest, .inr (split_lineFeed rest)⟩
      · have noFeed : ∀ rest, later ≠ '\n' :: rest := fun rest shape => feed ⟨rest, shape⟩
        exact ⟨_, _, split_carriageReturn noFeed, .inl rfl⟩
  | endOfText => exact absurd rfl ended

end Line

end TinyMips
