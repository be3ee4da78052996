import TinyMips.Source.Furthest

namespace TinyMips

/-!
# Source text

A source text is read line by line, and no line influences another. Its items
are the labels and statements of its lines, in order and with their line
numbers. A text with a line outside the grammar is rejected at the first such
line; the error counts rows by line feeds only, so that a lone carriage return
is a column like any other, while items count every line ending.
-/

/-- What the assembler has to know of a source text, one entry at a time. -/
inductive Item where
  /-- A label, which names the next statement. -/
  | label (line : Nat) (name : Text)
  /-- A statement. -/
  | statement (line : Nat) (statement : Statement)
  deriving DecidableEq, Repr

/-- A text outside the grammar: where, and what was tried there. -/
structure SyntaxError where
  row : Nat
  column : Nat
  expected : List Part
  deriving DecidableEq, Repr

namespace SyntaxError

/-- The wording of a syntax error, without its row. -/
def message (error : SyntaxError) : String :=
  s!"syntax error at column {error.column}: expected {Part.describe error.expected}"

/-- A place in a text by its row and its column, both counted from zero. -/
structure Place where
  row : Nat
  column : Nat
  deriving DecidableEq, Repr

/-- The place after a line that begins at the given place. -/
def Place.after (place : Place) (line : Line) : Place :=
  match line.ending with
  | .lineFeed | .returnFeed => ⟨place.row + 1, 0⟩
  | .carriageReturn => ⟨place.row, place.column + line.text.length + 1⟩
  | .endOfText => ⟨place.row, place.column + line.text.length⟩

/--
The error of a text whose first line outside the grammar follows `before`.

Where nothing at all could be read, the program as a whole is what was expected.
-/
def ofLine (before : List Line) (line : Line) : SyntaxError :=
  let start := before.foldl Place.after ⟨0, 0⟩
  let furthest := Furthest.ofLine line.text
  let parts := if before.isEmpty && furthest.position = 0 then [.program] else furthest.parts
  ⟨start.row + 1, start.column + furthest.position + 1, parts⟩

end SyntaxError

namespace Item

/-- The items of a line with the given number. -/
def ofContent (number : Nat) (content : Content) : List Item :=
  content.labels.map (.label number) ++ content.statement?.toList.map (.statement number)

/-- The items of numbered lines, up to the first line outside the grammar. -/
def ofLines (numbered : List (Line × Nat)) : List Item :=
  numbered.flatMap fun (line, number) =>
    match Content.ofLine? line.text with
    | some content => ofContent number content
    | none => []

/-- The items of a source text, or the error of its first line outside the grammar. -/
def ofText (source : Text) : Except SyntaxError (List Item) :=
  let lines := Line.split source
  match lines.findIdx? fun line => (Content.ofLine? line.text).isNone with
  | some index =>
      .error (SyntaxError.ofLine (lines.take index) (lines.getD index ⟨[], .endOfText⟩))
  | none => .ok (ofLines (lines.zipIdx 1))

/-- The statements among items, in order. -/
def statements (items : List Item) : List (Nat × Statement) :=
  items.filterMap fun
    | .label .. => none
    | .statement line body => some (line, body)

end Item

end TinyMips
