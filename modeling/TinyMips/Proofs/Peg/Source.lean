import TinyMips.Proofs.Peg.Line

namespace TinyMips.Peg

/-!
# Source texts by their rules

The rule for a program takes one line after the other and does not come back to a line
that it has left. So it accepts a text exactly if it accepts each of its lines, and it is
the first line that it does not accept where a rule is tried in vain furthest.
-/

open Expression

namespace Rules

/-! ## Lines one after the other -/

/-- The lines after a line, with something to skip before each line break. -/
def laterLines : Expression :=
  sequence (repetition (sequence skip nextLine)) (sequence skip endOfText)

/-- A line and the lines after it. -/
def lines : Expression :=
  sequence skip (sequence line laterLines)

/-- The second part of a sequence may be replaced by one that always does the same. -/
theorem run_sequence_congr
    {second other : Expression}
    (alike : ∀ cursor, second.run cursor = other.run cursor)
    (first : Expression)
    (cursor : Cursor) :
    (sequence first second).run cursor = (sequence first other).run cursor := by
  rw [run_sequence, run_sequence, funext alike]

/-- A program is its lines. -/
theorem run_program (cursor : Cursor) :
    program.run cursor = (lines.run cursor).orElse (.failed cursor.position) := by
  rw [program, run_rule, lines]
  congr 1
  apply run_sequence_congr
  apply run_sequence_congr
  exact run_spaced run_skip (by decide) endOfText

/-- A line is taken as far as it fits, and what follows is tried there. -/
theorem exists_run_skip_line (cursor : Cursor) :
    ∃ read furthest,
      (sequence skip line).run cursor = ⟨some read, furthest⟩ ∧
        wholeLine.run cursor = (skip.run read).noting furthest ∧
          lines.run cursor = (laterLines.run read).noting furthest := by
  obtain ⟨skipped, skipRan, _⟩ := run_skip cursor
  obtain ⟨read, furthest, _, lineRan⟩ := exists_run_line skipped
  refine ⟨read, furthest, ?_, ?_, ?_⟩
  · rw [run_sequence, skipRan, Attempt.andThen_fit, lineRan]
  · rw [wholeLine, run_sequence, skipRan, Attempt.andThen_fit, run_sequence, lineRan,
      Attempt.andThen_some]
  · rw [lines, run_sequence, skipRan, Attempt.andThen_fit, run_sequence, lineRan,
      Attempt.andThen_some]

/-- The place where a line ends, from the attempt on the line alone. -/
theorem exists_run_lines
    {cursor ended : Cursor}
    {furthest : WithBot Nat}
    (ran : wholeLine.run cursor = ⟨some ended, furthest⟩) :
    ∃ read,
      skip.run read = .fit ended ∧ lines.run cursor = (laterLines.run read).noting furthest := by
  obtain ⟨read, earlier, _, lineRan, linesRan⟩ := exists_run_skip_line cursor
  obtain ⟨settled, skipRan, _⟩ := run_skip read
  rw [lineRan, skipRan] at ran
  obtain ⟨sameEnd, sameFurthest⟩ := Attempt.mk.inj ran
  obtain rfl := Option.some.inj sameEnd
  obtain rfl : earlier = furthest := by simpa [Attempt.fit] using sameFurthest
  exact ⟨read, skipRan, linesRan⟩

/-- Where no line break follows a line, the text has to end. -/
theorem run_lines_of_noBreak
    {cursor ended : Cursor}
    {furthest : WithBot Nat}
    (ran : wholeLine.run cursor = ⟨some ended, furthest⟩)
    (noBreak : newline.run ended = .misfit) :
    lines.run cursor = (endOfText.run ended).noting furthest := by
  obtain ⟨read, skipRan, linesRan⟩ := exists_run_lines ran
  have failed : (sequence skip nextLine).run read = .misfit := by
    rw [run_sequence, skipRan, Attempt.andThen_fit, nextLine, run_sequence, noBreak,
      Attempt.andThen_misfit]
  have stopped : (repetition (sequence skip nextLine)).run read = .fit read :=
    repeated_of_none failed
  rw [linesRan, laterLines, run_sequence, stopped, Attempt.andThen_fit, run_sequence, skipRan,
    Attempt.andThen_fit]

/-- Where a line break follows a line, the lines after it are what is left. -/
theorem run_lines_of_break
    {cursor ended next : Cursor}
    {furthest : WithBot Nat}
    (ran : wholeLine.run cursor = ⟨some ended, furthest⟩)
    (isBreak : newline.run ended = .fit next) :
    lines.run cursor = (lines.run next).noting furthest := by
  obtain ⟨read, skipRan, linesRan⟩ := exists_run_lines ran
  obtain ⟨nextRead, nextFurthest, nextRan, _, nextLinesRan⟩ := exists_run_skip_line next
  have fits : (sequence skip nextLine).run read = ⟨some nextRead, nextFurthest⟩ := by
    rw [run_sequence, skipRan, Attempt.andThen_fit, nextLine, run_sequence, isBreak,
      Attempt.andThen_fit, nextRan]
  have goesOn :
      (repetition (sequence skip nextLine)).run read =
        ((repetition (sequence skip nextLine)).run nextRead).noting nextFurthest :=
    repeated_of_some fits (length_lt_of_run (by decide) fits)
  rw [linesRan, nextLinesRan, laterLines, run_sequence, run_sequence, goesOn,
    Attempt.noting_andThen]

/-! ## Line breaks -/

/-- No line ends at a character that is no line break. -/
theorem run_newline_cons
    {c : Char}
    (noBreak : c ≠ '\n' ∧ c ≠ '\r')
    (position : Nat)
    (text : Text) :
    newline.run ⟨position, c :: text⟩ = .misfit := by
  rw [newline, run_choice, run_choice, run_sequence, run_exactly_cons_of_ne noBreak.1,
    run_exactly_cons_of_ne noBreak.2]
  simp

/-- A line ending is taken as a whole, and a line feed behind a carriage return with it. -/
theorem run_newline_of_ending
    {ending : LineEnding}
    (ended : ending ≠ .endOfText)
    {rest : Text}
    (noFeed : ending = .carriageReturn → ∀ later, rest ≠ '\n' :: later)
    (position : Nat) :
    newline.run ⟨position, ending.text ++ rest⟩ =
      .fit ⟨position + ending.text.length, rest⟩ := by
  cases ending with
  | lineFeed =>
      rfl
  | returnFeed =>
      rfl
  | carriageReturn =>
      have notFeed : '\r' ≠ '\n' := by decide
      rw [newline, run_choice, run_choice, run_sequence, LineEnding.text, List.singleton_append,
        run_exactly_cons_of_ne notFeed, run_exactly_cons, Attempt.andThen_fit,
        run_exactly_of_ne (noFeed rfl)]
      rfl
  | endOfText =>
      exact absurd rfl ended

/-! ## All lines -/

/-- After the text of a line comes a line break, or nothing. -/
theorem breaks_of_areLines
    {line : Line}
    {later : List Line}
    (areLines : Line.AreLines (line :: later)) :
    Breaks (line.ending.text ++ Line.join later) := by
  cases areLines with
  | final oneLine =>
      simp [Breaks, LineEnding.text, Line.join]
  | more oneLine ended apart areLines =>
      obtain ⟨text, ending⟩ := line
      cases ending with
      | lineFeed => simp [Breaks, LineEnding.text]
      | returnFeed => simp [Breaks, LineEnding.text]
      | carriageReturn => simp [Breaks, LineEnding.text]
      | endOfText => exact absurd rfl ended

/-- A line that can be read is taken whole, whatever follows it. -/
theorem run_line_of_accepted
    {text after : Text}
    (oneLine : text.IsOneLine)
    (breaks : Breaks after)
    (accepted : (Content.ofLine? text).isSome = true)
    (position : Nat) :
    ∃ furthest ≤ WithBot.some (position + text.length),
      wholeLine.run ⟨position, text ++ after⟩ =
        ⟨some ⟨position + text.length, after⟩, furthest⟩ := by
  obtain ⟨ended, furthest, ran, whole, _⟩ := run_line oneLine
  have embedded :=
    run_embed (by decide : wholeLine.withinLine = true) position breaks ⟨0, text⟩
  have bounded := furthest_le_limit wholeLine ⟨0, text⟩
  rw [ran] at embedded bounded
  have limit := (behind_of_run ran).limit
  obtain ⟨reached, rest⟩ := ended
  obtain rfl : rest = [] := whole.mp accepted
  obtain rfl : reached = text.length := by simpa [Cursor.limit] using limit
  refine ⟨WithBot.some position + furthest, ?_, embedded⟩
  rw [WithBot.coe_add]
  refine add_le_add_right ?_ _
  simpa [Cursor.limit] using bounded

/-- A line that cannot be read is left before its end, whatever follows it. -/
theorem run_line_of_rejected
    {text after : Text}
    (oneLine : text.IsOneLine)
    (breaks : Breaks after)
    (rejected : Content.ofLine? text = none)
    (position : Nat) :
    ∃ reached c rest furthest,
      wholeLine.run ⟨position, text ++ after⟩ =
          ⟨some ⟨reached, c :: rest⟩, furthest⟩ ∧
        (c ≠ '\n' ∧ c ≠ '\r') ∧
          furthest ⊔ .some reached = .some (position + (Furthest.ofLine text).position) := by
  obtain ⟨⟨reached, left⟩, furthest, ran, whole, failure⟩ := run_line oneLine
  have embedded :=
    run_embed (by decide : wholeLine.withinLine = true) position breaks ⟨0, text⟩
  rw [ran] at embedded
  obtain ⟨word, splits, _, _⟩ := behind_of_run ran
  obtain ⟨c, rest, rfl⟩ : ∃ c rest, left = c :: rest := by
    apply List.exists_cons_of_ne_nil
    rintro rfl
    simp [rejected] at whole
  refine ⟨position + reached, c, rest ++ after, WithBot.some position + furthest, embedded, ?_, ?_⟩
  · rw [show text = word ++ c :: rest from splits] at oneLine
    exact (Text.isOneLine_cons_iff.mp (Text.isOneLine_append_iff.mp oneLine).2).1
  · rw [WithBot.coe_add, WithBot.coe_add, ← failure rejected]
    exact max_add_add_left _ _ _

/-- A first line that can be read leaves the lines after it to be taken. -/
theorem run_lines_cons
    {line : Line}
    {later : List Line}
    (oneLine : line.text.IsOneLine)
    (ended : line.ending ≠ .endOfText)
    (apart : line.ending = .carriageReturn → ∀ others, later ≠ ⟨[], .lineFeed⟩ :: others)
    (areLines : Line.AreLines later)
    (accepted : (Content.ofLine? line.text).isSome = true)
    (position : Nat) :
    ∃ furthest ≤ WithBot.some (position + line.text.length),
      lines.run ⟨position, Line.join (line :: later)⟩ =
        (lines.run
          ⟨position + line.text.length + line.ending.text.length, Line.join later⟩).noting
            furthest := by
  obtain ⟨furthest, bounded, ran⟩ :=
    run_line_of_accepted oneLine (breaks_of_areLines (.more oneLine ended apart areLines))
      accepted position
  have isBreak :=
    run_newline_of_ending ended (fun carriage => areLines.noFeed (apart carriage))
      (position + line.text.length)
  refine ⟨furthest, bounded, ?_⟩
  rw [Line.join_cons]
  exact run_lines_of_break ran isBreak

/-- Lines that can all be read are taken up to the end of the text. -/
theorem run_lines_of_accepted
    {all : List Line}
    (areLines : Line.AreLines all)
    (accepted : ∀ line ∈ all, (Content.ofLine? line.text).isSome = true)
    (position : Nat) :
    ∃ next furthest, lines.run ⟨position, Line.join all⟩ = ⟨some next, furthest⟩ := by
  induction areLines generalizing position with
  | @final text oneLine =>
      obtain ⟨furthest, _, ran⟩ :=
        run_line_of_accepted oneLine (breaks_of_areLines (.final oneLine))
          (accepted ⟨text, .endOfText⟩ (by simp)) position
      rw [Line.join_cons]
      exact ⟨_, _, run_lines_of_noBreak ran rfl⟩
  | @more line later oneLine ended apart areLines inductionHypothesis =>
      obtain ⟨furthest, _, ran⟩ :=
        run_lines_cons oneLine ended apart areLines (accepted line (by simp)) position
      obtain ⟨next, reached, laterRan⟩ :=
        inductionHypothesis (fun other member => accepted other (by simp [member]))
          (position + line.text.length + line.ending.text.length)
      rw [ran, laterRan]
      exact ⟨next, _, rfl⟩

/-- The first line that cannot be read is where a rule is tried in vain furthest. -/
theorem run_lines_of_rejected
    {before after : List Line}
    {line : Line}
    (areLines : Line.AreLines (before ++ line :: after))
    (accepted : ∀ earlier ∈ before, (Content.ofLine? earlier.text).isSome = true)
    (rejected : Content.ofLine? line.text = none)
    (position : Nat) :
    lines.run ⟨position, Line.join (before ++ line :: after)⟩ =
      .failed (position + (Line.join before).length + (Furthest.ofLine line.text).position) := by
  induction before generalizing position with
  | nil =>
      rw [List.nil_append] at areLines ⊢
      obtain ⟨reached, c, rest, furthest, ran, noBreak, place⟩ :=
        run_line_of_rejected areLines.areEnded.isOneLine (breaks_of_areLines areLines) rejected
          position
      rw [Line.join_cons, run_lines_of_noBreak ran (run_newline_cons noBreak reached rest)]
      exact congrArg (Attempt.mk none) place
  | cons first before inductionHypothesis =>
      rw [List.cons_append] at areLines ⊢
      generalize shape : before ++ line :: after = later at areLines
      cases areLines with
      | final => simp at shape
      | more oneLine ended apart areLines =>
          obtain ⟨furthest, bounded, ran⟩ :=
            run_lines_cons oneLine ended apart areLines (accepted first (by simp)) position
          subst shape
          have laterRan :=
            inductionHypothesis areLines (fun earlier member => accepted earlier (by simp [member]))
              (position + first.text.length + first.ending.text.length)
          rw [ran, laterRan, Line.join_cons]
          simp only [Attempt.failed, Attempt.noting, List.length_append]
          -- What was tried in vain on the first line lies before the lines after it.
          rw [sup_eq_right.mpr (bounded.trans (WithBot.coe_le_coe.mpr (by omega)))]
          simp only [Nat.add_assoc]

end Rules

/-! ## Whole texts -/

/-- Where each line of a text can be read, the grammar accepts the text. -/
theorem accepts_of_lines
    {source : Text}
    (accepted : ∀ line ∈ Line.split source, (Content.ofLine? line.text).isSome = true) :
    Accepts source := by
  obtain ⟨next, furthest, ran⟩ :=
    Rules.run_lines_of_accepted (Line.areLines_split source) accepted 0
  rw [Line.join_split] at ran
  rw [Accepts, parse, Rules.run_program, ran]
  rfl

/-- A text is left at the first of its lines that cannot be read. -/
theorem parse_of_rejected
    {source : Text}
    {before after : List Line}
    {line : Line}
    (lines : Line.split source = before ++ line :: after)
    (accepted : ∀ earlier ∈ before, (Content.ofLine? earlier.text).isSome = true)
    (rejected : Content.ofLine? line.text = none) :
    parse source =
      .failed ((Line.join before).length + (Furthest.ofLine line.text).position) := by
  have areLines := Line.areLines_split source
  rw [lines] at areLines
  have ran := Rules.run_lines_of_rejected areLines accepted rejected 0
  rw [← lines, Line.join_split, Nat.zero_add] at ran
  rw [parse, Rules.run_program, ran]
  -- The rule for the whole program fails where the text begins.
  exact congrArg (Attempt.mk none) (sup_eq_left.mpr (WithBot.coe_le_coe.mpr (Nat.zero_le _)))

/-- Among lines that do not all fit there is a first one that does not. -/
theorem exists_first_rejected
    {lines : List Line}
    (rejected : ¬ ∀ line ∈ lines, (Content.ofLine? line.text).isSome = true) :
    ∃ before line after,
      lines = before ++ line :: after ∧
        (∀ earlier ∈ before, (Content.ofLine? earlier.text).isSome = true) ∧
          Content.ofLine? line.text = none := by
  cases found : lines.find? fun line => (Content.ofLine? line.text).isNone with
  | none =>
      refine absurd (fun line member => ?_) rejected
      simpa [Option.isSome_iff_ne_none] using List.find?_eq_none.mp found line member
  | some line =>
      obtain ⟨isNone, before, after, shape, earlier⟩ := List.find?_eq_some_iff_append.mp found
      exact ⟨before, line, after, shape, by simpa using earlier, by simpa using isNone⟩

/-- The grammar accepts a text exactly if each line of the text can be read. -/
theorem accepts_iff
    {source : Text} :
    Accepts source ↔
      ∀ line ∈ Line.split source, (Content.ofLine? line.text).isSome = true := by
  constructor
  · intro accepted
    by_contra rejected
    obtain ⟨before, line, after, shape, earlier, isNone⟩ := exists_first_rejected rejected
    rw [Accepts, parse_of_rejected shape earlier isNone] at accepted
    simp [Attempt.failed] at accepted
  · exact accepts_of_lines

instance (source : Text) : Decidable (Accepts source) :=
  decidable_of_iff _ accepts_iff.symm

instance (source : Text) : Decidable (Rejects source) :=
  decidable_of_iff _ not_accepts_iff

/-- A single line is accepted exactly if it has a content. -/
theorem accepts_line_iff
    {text : Text}
    (oneLine : text.IsOneLine) :
    Accepts text ↔ (Content.ofLine? text).isSome = true := by
  simp [accepts_iff, Line.split_of_isOneLine oneLine]

end TinyMips.Peg
