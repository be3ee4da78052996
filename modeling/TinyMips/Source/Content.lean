import TinyMips.Source.Statement
import TinyMips.Text.Line

namespace TinyMips

/-!
# The content of a line

A line holds any number of labels and then a statement, a directive or nothing;
blanks may stand between these and a comment may end the line. A directive is a
dot and anything up to a comment, and means nothing to the assembler.
-/

/-- What a line says. -/
structure Content where
  labels : List Text
  statement? : Option Statement
  deriving DecidableEq, Repr

namespace Content

/-- A label leaves less text than there was. -/
theorem label_rest_length_lt
    {text : Text}
    {label : Token.Cut}
    (found : Token.label? text = some label) :
    (Token.skip label.rest).length < text.length := by
  have skipped : (Token.skip label.rest).length ≤ label.rest.length := by
    unfold Token.skip
    split
    · simp
    · exact (List.dropWhile_suffix Text.isBlank).length_le
  unfold Token.label? at found
  split at found
  · rename_i name rest identifierFound
    have splits := Token.identifier?_splits identifierFound
    obtain rfl := Option.some.inj found
    simp only [Token.Cut.Splits] at splits
    rw [← splits]
    simp only [List.length_append, List.length_cons]
    simp only at skipped
    omega
  · simp at found

/-- The labels at the front of a text, with `earlier` ones in reverse, and the text after them. -/
def readLabels (earlier : List Text) (text : Text) : List Text × Text :=
  match _found : Token.label? text with
  | none => (earlier.reverse, text)
  | some label => readLabels (label.token :: earlier) (Token.skip label.rest)
  termination_by text.length
  decreasing_by exact label_rest_length_lt (by assumption)

/-- The statement, directive or nothing that the rest of a line holds. -/
def ofBody? (labels : List Text) (text : Text) : Option Content :=
  match text with
  | [] => some ⟨labels, none⟩
  | '.' :: _ => some ⟨labels, none⟩
  | _ =>
      match Statement.read? text with
      | none => none
      | some (statement, rest) =>
          if (Token.skip rest).isEmpty then some ⟨labels, some statement⟩ else none

/-- What a line says, if it follows the grammar. -/
def ofLine? (line : Text) : Option Content :=
  let (labels, body) := readLabels [] (Token.skip line)
  ofBody? labels body

end Content

end TinyMips
