import TinyMips.Assembly.Basic
import TinyMips.Proofs.Peg.Source

namespace TinyMips

/-!
# Where a rejected source is reported

A source that the grammar rejects is reported in the first of its lines that the grammar
rejects by itself. The row of the report counts line feeds only, so it falls short of the
number of that line by the lone carriage returns that end earlier lines.
-/

namespace SyntaxError

/-! ## Rows and columns -/

/-- The place after a character; only a line feed begins a row. -/
def Place.step
    (place : Place)
    (c : Char) :
    Place :=
  if c = '\n' then ⟨place.row + 1, 0⟩ else ⟨place.row, place.column + 1⟩

/-- The place at the end of a text. -/
def Place.atEnd (text : Text) : Place :=
  text.foldl Place.step ⟨0, 0⟩

/-- Within a line, a character moves the place by one column. -/
theorem foldl_step_of_isOneLine
    {text : Text}
    (oneLine : text.IsOneLine)
    (place : Place) :
    text.foldl Place.step place = ⟨place.row, place.column + text.length⟩ := by
  induction text generalizing place with
  | nil =>
      rfl
  | cons c text inductionHypothesis =>
      obtain ⟨⟨notFeed, _⟩, rest⟩ := Text.isOneLine_cons_iff.mp oneLine
      rw [List.foldl_cons, inductionHypothesis rest, Place.step, if_neg notFeed]
      simp [Nat.add_assoc, Nat.add_comm 1]

/-- Over a whole line, the place moves behind its ending. -/
theorem foldl_step_line
    {line : Line}
    (oneLine : line.text.IsOneLine)
    (place : Place) :
    (line.text ++ line.ending.text).foldl Place.step place = place.after line := by
  obtain ⟨text, ending⟩ := line
  rw [List.foldl_append, foldl_step_of_isOneLine oneLine]
  cases ending <;> rfl

/-- The lines before a line take a place as far as their text does. -/
theorem foldl_step_join
    {lines : List Line}
    (oneLines : ∀ line ∈ lines, line.text.IsOneLine)
    (place : Place) :
    (Line.join lines).foldl Place.step place = lines.foldl Place.after place := by
  induction lines generalizing place with
  | nil =>
      rfl
  | cons line lines inductionHypothesis =>
      obtain ⟨oneLine, others⟩ := List.forall_mem_cons.mp oneLines
      rw [Line.join_cons, ← List.append_assoc, List.foldl_append, foldl_step_line oneLine,
        inductionHypothesis others, List.foldl_cons]

/-- Each line begins a row, but not after a lone carriage return. -/
theorem row_foldl_after
    {lines : List Line}
    (ended : ∀ line ∈ lines, line.ending ≠ .endOfText)
    (place : Place) :
    (lines.foldl Place.after place).row + lines.countP (·.ending = .carriageReturn) =
      place.row + lines.length := by
  induction lines generalizing place with
  | nil =>
      rfl
  | cons line lines inductionHypothesis =>
      obtain ⟨lineEnded, others⟩ := List.forall_mem_cons.mp ended
      have later := inductionHypothesis others (place.after line)
      obtain ⟨text, ending⟩ := line
      rw [List.foldl_cons, List.countP_cons, List.length_cons]
      cases ending <;> simp [Place.after] at later lineEnded ⊢ <;> omega

end SyntaxError

namespace Item

/-- A source is reported at the first of its lines that cannot be read. -/
theorem ofText_of_rejected
    {source : Text}
    {before after : List Line}
    {line : Line}
    (lines : Line.split source = before ++ line :: after)
    (accepted : ∀ earlier ∈ before, (Content.ofLine? earlier.text).isSome = true)
    (rejected : Content.ofLine? line.text = none) :
    ofText source = .error (SyntaxError.ofLine before line) := by
  have noneBefore :
      before.findIdx? (fun line => (Content.ofLine? line.text).isNone) = none :=
    List.findIdx?_eq_none_iff.mpr fun earlier member => by simp [accepted earlier member]
  simp [ofText, lines, List.findIdx?_append, noneBefore, List.findIdx?_cons, rejected]

end Item

namespace SyntaxError

/-- An error names a position of a text by its row and its column, both counted from one. -/
def StandsAt
    (error : SyntaxError)
    (source : Text)
    (position : Nat) :
    Prop :=
  error.row = (Place.atEnd (source.take position)).row + 1 ∧
    error.column = (Place.atEnd (source.take position)).column + 1

/-- The place that is reported for a line is the place so far behind the start of the line. -/
theorem atEnd_take
    {source : Text}
    {before after : List Line}
    {line : Line}
    (lines : Line.split source = before ++ line :: after)
    {distance : Nat}
    (within : distance ≤ line.text.length) :
    Place.atEnd (source.take ((Line.join before).length + distance)) =
      ⟨(before.foldl Place.after ⟨0, 0⟩).row,
        (before.foldl Place.after ⟨0, 0⟩).column + distance⟩ := by
  have areLines := Line.areLines_split source
  rw [lines] at areLines
  have shape :
      source = Line.join before ++ (line.text ++ (line.ending.text ++ Line.join after)) := by
    rw [← Line.join_split source, lines, ← Line.join_cons]
    simp [Line.join]
  have oneLine : Text.IsOneLine (line.text.take distance) := fun c member =>
    areLines.of_append.areEnded.isOneLine c (List.mem_of_mem_take member)
  rw [shape, List.take_length_add_append, List.take_append_of_le_length within, Place.atEnd,
    List.foldl_append,
    foldl_step_join fun earlier member => (areLines.ended_before earlier member).1,
    foldl_step_of_isOneLine oneLine, List.length_take_of_le within]

/-- The first line of a source that the grammar rejects by itself, between the other lines. -/
structure IsFirstRejected
    (source : Text)
    (before : List Line)
    (line : Line)
    (after : List Line) :
    Prop where
  lines : Line.split source = before ++ line :: after
  accepted : ∀ earlier ∈ before, Peg.Accepts earlier.text
  rejected : Peg.Rejects line.text

/-- What is reported of a line is a place on the line or at its end. -/
theorem position_ofLine_le
    {text : Text}
    (parsed : Peg.parse text = .failed (Furthest.ofLine text).position) :
    (Furthest.ofLine text).position ≤ text.length := by
  have bounded := Peg.Expression.furthest_le_limit Peg.Rules.program ⟨0, text⟩
  rw [← Peg.parse, parsed] at bounded
  simpa [Peg.Attempt.failed, Peg.Cursor.limit] using bounded

/--
A source that the grammar rejects is reported at the furthest place where a rule was
tried in vain, and this place lies on the first line that the grammar rejects by itself.
The row of the report falls short of the number of that line by the earlier lines that
end with a lone carriage return, so it is the number of the line exactly if there are
none.
-/
theorem lies_on_first_rejected_line
    {source : Text}
    (rejected : Peg.Rejects source) :
    ∃ before line after position error,
      IsFirstRejected source before line after ∧
        assemble source = .error ⟨error.row, .malformed (.outsideGrammar error)⟩ ∧
          ((Peg.parse source).furthest = .some position ∧
            (Line.join before).length ≤ position ∧
              position ≤ (Line.join before).length + line.text.length) ∧
            error.StandsAt source position ∧
              error.row + before.countP (·.ending = .carriageReturn) = before.length + 1 ∧
                (error.row = before.length + 1 ↔
                  ∀ earlier ∈ before, earlier.ending ≠ .carriageReturn) := by
  have notAll := mt Peg.accepts_of_lines (Peg.not_accepts_iff.mpr rejected)
  obtain ⟨before, line, after, lines, accepted, unread⟩ := Peg.exists_first_rejected notAll
  have areLines := Line.areLines_split source
  rw [lines] at areLines
  have ended := areLines.ended_before
  have parsed := Peg.parse_of_rejected lines accepted unread
  have alone : Peg.parse line.text = .failed (Furthest.ofLine line.text).position := by
    have split : Line.split line.text = [] ++ ⟨line.text, .endOfText⟩ :: [] :=
      Line.split_of_isOneLine areLines.of_append.areEnded.isOneLine
    simpa [Line.join] using Peg.parse_of_rejected split (by simp) unread
  have within := position_ofLine_le alone
  have row :
      (ofLine before line).row + before.countP (·.ending = .carriageReturn) =
        before.length + 1 := by
    have rows := row_foldl_after (fun earlier member => (ended earlier member).2) ⟨0, 0⟩
    simp only [Nat.zero_add] at rows
    rw [ofLine, Nat.add_right_comm, rows]
  refine ⟨before, line, after, (Line.join before).length + (Furthest.ofLine line.text).position,
    ofLine before line, ?_, ?_, ?_, ?_, row, ?_⟩
  · exact
      { lines
        accepted := fun earlier member =>
          (Peg.accepts_line_iff (ended earlier member).1).mpr (accepted earlier member)
        rejected := congrArg Peg.Attempt.next? alone }
  · rw [assemble, Item.ofText_of_rejected lines accepted unread]
    rfl
  · exact ⟨congrArg Peg.Attempt.furthest parsed, by omega, by omega⟩
  · rw [StandsAt, atEnd_take lines within]
    exact ⟨rfl, rfl⟩
  · rw [← row, Nat.left_eq_add, List.countP_eq_zero]
    simp

/-- A source whose third line is rejected, after a lone carriage return on its second row. -/
def unfinishedSum : Text :=
  Text.ofString "top: lui $t0, 1\r\n# half\raddi $t0, $t0,\n9lives"

/-- The third line is reported at its end, but as row 2. -/
theorem unfinishedSum_is_reported_at_its_end :
    Peg.Rejects unfinishedSum ∧
      ∃ error : SyntaxError,
        assemble unfinishedSum = .error ⟨2, .malformed (.outsideGrammar error)⟩ ∧
          (Peg.parse unfinishedSum).furthest = .some 38 ∧ error.StandsAt unfinishedSum 38 := by
  have rejected : Peg.Rejects unfinishedSum := by
    decide +kernel
  have furthest : (Peg.parse unfinishedSum).furthest = .some 38 := by
    decide +kernel
  have assembled :
      assemble unfinishedSum =
        .error
          ⟨2, .malformed
            (.outsideGrammar ⟨2, 22, [.immediate, .register, .immediate, .identifier]⟩)⟩ := by
    decide +kernel
  obtain ⟨_, _, _, position, error, _, reported, ⟨atPosition, _⟩, stands, _⟩ :=
    lies_on_first_rejected_line rejected
  obtain rfl : position = 38 := WithBot.coe_inj.mp (atPosition.symm.trans furthest)
  have row : error.row = 2 :=
    congrArg AssemblyError.line (Except.error.inj (reported.symm.trans assembled))
  rw [row] at reported
  exact ⟨rejected, error, reported, furthest, stands⟩

/-- A source whose second line is rejected, after a lone carriage return. -/
def returnedNumeral : Text :=
  Text.ofString "nop\r9lives:"

/-- The second line of the source is reported as line 1. -/
theorem returnedNumeral_is_misnumbered :
    ¬ ∀ (source : Text) (before : List Line) (line : Line) (after : List Line)
        (error : AssemblyError),
        IsFirstRejected source before line after →
          assemble source = .error error → error.line = before.length + 1 := by
  intro numbered
  have second :
      IsFirstRejected returnedNumeral [⟨Text.ofString "nop", .carriageReturn⟩]
        ⟨Text.ofString "9lives:", .endOfText⟩ [] :=
    { lines := by decide +kernel
      accepted := by decide +kernel
      rejected := by decide +kernel }
  have reported :
      assemble returnedNumeral =
        .error
          ⟨1, .malformed
            (.outsideGrammar ⟨1, 5, [.identifier, .directive, .mnemonic, .endOfText]⟩)⟩ := by
    decide +kernel
  have line := numbered _ _ _ _ _ second reported
  simp at line

end SyntaxError

end TinyMips
