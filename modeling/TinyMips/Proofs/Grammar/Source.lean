import TinyMips.Proofs.Grammar.Line
import TinyMips.Proofs.Source.Item
import TinyMips.Proofs.Text.Line
import TinyMips.Proofs.Traversal

namespace TinyMips

/-!
# Sources of the language

A source text is accepted exactly if each of its rows is a line of the language, and
its items are those of its rows, each of which is read for itself.
-/

namespace Grammar

/--
The rows of a text. A line feed, a carriage return or the two together stand between
one row and the next, and a carriage return stands alone only where no line feed
follows it.
-/
inductive Rows : Text → List Text → Prop where
  | final
      {row : Text}
      (oneLine : row.IsOneLine) :
      Rows row [row]
  | lineFeed
      {row later : Text}
      {rows : List Text}
      (oneLine : row.IsOneLine)
      (areRows : Rows later rows) :
      Rows (row ++ '\n' :: later) (row :: rows)
  | returnFeed
      {row later : Text}
      {rows : List Text}
      (oneLine : row.IsOneLine)
      (areRows : Rows later rows) :
      Rows (row ++ '\r' :: '\n' :: later) (row :: rows)
  | carriageReturn
      {row later : Text}
      {rows : List Text}
      (oneLine : row.IsOneLine)
      (noFeed : ∀ rest, later ≠ '\n' :: rest)
      (areRows : Rows later rows) :
      Rows (row ++ '\r' :: later) (row :: rows)

/-- The rows of a text are the texts of the lines that it is split into. -/
theorem Rows.eq_split
    {source : Text}
    {rows : List Text}
    (areRows : Rows source rows) :
    rows = (Line.split source).map Line.text := by
  induction areRows with
  | final oneLine =>
      rw [Line.split_of_isOneLine oneLine]
      rfl
  | @lineFeed row later rows oneLine _ inductionHypothesis =>
      rw [Line.split_append oneLine (Line.split_lineFeed later), inductionHypothesis]
      simp
  | @returnFeed row later rows oneLine _ inductionHypothesis =>
      rw [Line.split_append oneLine (Line.split_returnFeed later), inductionHypothesis]
      simp
  | @carriageReturn row later rows oneLine noFeed _ inductionHypothesis =>
      rw [Line.split_append oneLine (Line.split_carriageReturn noFeed), inductionHypothesis]
      simp

/-- The texts of lines are the rows of the text that the lines make up. -/
theorem rows_join
    {lines : List Line}
    (areLines : Line.AreLines lines) :
    Rows (Line.join lines) (lines.map Line.text) := by
  induction areLines with
  | final oneLine =>
      simpa [Line.join, LineEnding.text] using Rows.final oneLine
  | @more line lines oneLine ended apart areLines inductionHypothesis =>
      obtain ⟨text, ending⟩ := line
      rw [Line.join_cons]
      cases ending with
      | lineFeed => exact .lineFeed oneLine inductionHypothesis
      | returnFeed => exact .returnFeed oneLine inductionHypothesis
      | carriageReturn =>
          exact .carriageReturn oneLine (areLines.noFeed (apart rfl)) inductionHypothesis
      | endOfText => exact absurd rfl ended

/-- The rows of a source text are unique: they are the texts of the lines that it is split into. -/
theorem rows_iff
    {source : Text}
    {rows : List Text} :
    Rows source rows ↔ rows = (Line.split source).map Line.text := by
  constructor
  · exact Rows.eq_split
  · rintro rfl
    have areRows := rows_join (Line.areLines_split source)
    rwa [Line.join_split] at areRows

end Grammar

namespace Item

open Grammar

/-- What the rows of a source say, where each of them is a line of the language. -/
theorem forall₂_isLine_iff
    {source : Text}
    {contents : List Content} :
    List.Forall₂ IsLine ((Line.split source).map Line.text) contents ↔
      (Line.split source).map (fun line => Content.ofLine? line.text) = contents.map some := by
  rw [← List.forall₂_eq_eq_eq, List.forall₂_map_left_iff, List.forall₂_map_left_iff,
    List.forall₂_map_right_iff]
  simp only [Content.ofLine?_eq_some_iff]

/-- What is said in a source that can be read is said on a line of the language. -/
theorem exists_isLine_of_mem
    {source : Text}
    {items : List Item}
    (accepted : ofText source = .ok items)
    {item : Item}
    (member : item ∈ items) :
    ∃ text content number, IsLine text content ∧ item ∈ ofContent number content := by
  obtain ⟨contents, reads, rfl⟩ := ofText_eq_ok_iff.mp accepted
  obtain ⟨⟨content, number⟩, numbered, inContent⟩ := List.mem_flatMap.mp member
  have inContents : some content ∈ contents.map some :=
    List.mem_map_of_mem (List.fst_mem_of_mem_zipIdx numbered)
  rw [← reads] at inContents
  obtain ⟨row, _, read⟩ := List.mem_map.mp inContents
  exact ⟨row.text, content, number, Content.ofLine?_eq_some_iff.mp read, inContent⟩

/--
A source is accepted exactly if each of its rows is a line of the language, and its
items are then the labels and statements of its rows, in order, each with the number
of its row.
-/
theorem ofText_accepts_language (source : Text) :
    ∃ rows,
      (∀ others, Rows source others ↔ others = rows) ∧
        ((∃ items, ofText source = .ok items) ↔
          ∀ row ∈ rows, ∃ content, IsLine row content) ∧
        ∀ items,
          ofText source = .ok items ↔
            ∃ contents, List.Forall₂ IsLine rows contents ∧ items = ofContents 1 contents := by
  have accepted (items : List Item) :
      ofText source = .ok items ↔
        ∃ contents,
          List.Forall₂ IsLine ((Line.split source).map Line.text) contents ∧
            items = ofContents 1 contents := by
    simp only [ofText_eq_ok_iff, forall₂_isLine_iff]
  refine ⟨(Line.split source).map Line.text, fun others => rows_iff, ?_, accepted⟩
  rw [← exists_forall₂_iff]
  constructor
  · rintro ⟨items, read⟩
    obtain ⟨contents, areLines, _⟩ := (accepted items).mp read
    exact ⟨contents, areLines⟩
  · rintro ⟨contents, areLines⟩
    exact ⟨_, (accepted _).mpr ⟨contents, areLines, rfl⟩⟩

end Item

end TinyMips
