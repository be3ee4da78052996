import TinyMips.Proofs.Assembly.Numbering
import TinyMips.Proofs.Source.Statement
import TinyMips.Proofs.Surface.Blanks
import TinyMips.Proofs.Surface.Statement

namespace TinyMips

/-!
# Edits of a line

A line can be edited in many ways that keep its labels and what its statement means: more
blanks at its ends, other runs of blanks within it, a comment, and another spelling of its
statement. Labels that stand in front of others can also be told apart from the line.
-/

namespace Content

open Grammar

/-! ## What the grammar says once -/

/-- A text is a line with one content only. -/
theorem eq_of_isLine
    {text : Text}
    {first second : Content}
    (isFirst : IsLine text first)
    (isSecond : IsLine text second) :
    first = second := by
  rw [← ofLine?_eq_some_iff] at isFirst isSecond
  exact Option.some.inj (isFirst.symm.trans isSecond)

theorem isLine_nil :
    IsLine [] silent :=
  ofLine?_eq_some_iff.mp ofLine?_nil

/-- Blanks in front of a line say nothing. -/
theorem isLine_blanks_iff
    {blanks : Text}
    (areBlanks : Blanks blanks)
    {text : Text}
    {content : Content} :
    IsLine (blanks ++ text) content ↔ IsLine text content := by
  obtain ⟨names, statement?⟩ := content
  rw [isLine_iff, isLine_iff, Token.skip_append areBlanks]

/-- A label says its name, and then the line says what the rest of it does. -/
theorem isLine_label_iff
    {name : Text}
    (isIdentifier : Identifier name)
    {rest : Text}
    {names : List Text}
    {statement? : Option Statement} :
    IsLine (name ++ ':' :: rest) ⟨names, statement?⟩ ↔
      ∃ later, names = name :: later ∧ IsLine rest ⟨later, statement?⟩ := by
  constructor
  · intro isLine
    have skipped := skip_identifier isIdentifier (':' :: rest)
    have found := Token.label?_of_identifier isIdentifier rest
    rcases isLine_iff.mp isLine with
      ⟨_, remainder⟩ | ⟨other, others, later, isOther, shape, rfl, isLater⟩
    · rw [skipped] at remainder
      simp [label?_of_remainder skipped remainder] at found
    · rw [skipped] at shape
      rw [shape, Token.label?_of_identifier isOther] at found
      obtain ⟨rfl, rfl⟩ := Token.Cut.mk.inj (Option.some.inj found)
      exact ⟨later, rfl, isLater⟩
  · rintro ⟨later, rfl, isLine⟩
    simpa using isLine_of_label .nil isIdentifier isLine

/-- Labels say their names, and then the line says what the rest of it does. -/
theorem isLine_labels_iff
    {labels : Text}
    {names : List Text}
    (areLabels : AreLabels labels names)
    {rest : Text}
    {all : List Text}
    {statement? : Option Statement} :
    IsLine (labels ++ rest) ⟨all, statement?⟩ ↔
      ∃ later, all = names ++ later ∧ IsLine rest ⟨later, statement?⟩ := by
  induction areLabels generalizing all with
  | none =>
      simp
  | @label name blanks others names isIdentifier areBlanks areLabels inductionHypothesis =>
      rw [List.append_assoc, List.cons_append, isLine_label_iff isIdentifier]
      simp only [List.append_assoc, isLine_blanks_iff areBlanks, inductionHypothesis]
      constructor
      · rintro ⟨_, rfl, later, rfl, isLine⟩
        exact ⟨later, rfl, isLine⟩
      · rintro ⟨later, rfl, isLine⟩
        exact ⟨_, rfl, later, rfl, isLine⟩

/-- Blanks and a comment at the end of a line say nothing. -/
theorem isLine_append_tail
    {text : Text}
    {content : Content}
    (isLine : IsLine text content)
    {tail : Text}
    (isTail : Tail tail) :
    IsLine (text ++ tail) content := by
  obtain @⟨leading, labels, body, trailing, comment, names, statement?, blanksBefore, areLabels,
    isBody, blanksAfter, isComment⟩ := isLine
  cases isComment with
  | none =>
      obtain @⟨more, after, areMore, isAfter⟩ := isTail
      have blanks : Blanks (trailing ++ more) := List.forall_mem_append.mpr ⟨blanksAfter, areMore⟩
      simpa using IsLine.mk blanksBefore areLabels isBody blanks isAfter
  | comment old =>
      simpa using IsLine.mk blanksBefore areLabels isBody blanksAfter (.comment (old ++ tail))

/-! ## Lines that say the same -/

/-- What lines say with the same labels, and with statements that mean the same. -/
structure Alike (first second : Content) : Prop where
  labels : first.labels = second.labels
  statements : Option.Rel Statement.Alike first.statement? second.statement?

theorem Alike.refl (content : Content) :
    content.Alike content where
  labels := rfl
  statements := by
    cases content.statement? with
    | none => exact .none
    | some statement => exact .some (Statement.alike_of_same rfl rfl)

end Content

namespace Item

/-- The labels of a line mark the place that the line has reached. -/
theorem places_ofContent
    (index number : Nat)
    (content : Content) :
    places index (ofContent number content) = content.labels.map fun name => (name, index) := by
  obtain ⟨names, statement?⟩ := content
  induction names with
  | nil =>
      cases statement? <;> rfl
  | cons name names inductionHypothesis =>
      exact congrArg ((name, index) :: ·) inductionHypothesis

/-- A line contributes its statement, if it has one. -/
theorem bodies_ofContent
    (number : Nat)
    (content : Content) :
    bodies (ofContent number content) = content.statement?.toList := by
  rw [bodies, statements_ofContent]
  cases content.statement? <;> rfl

/-- Contents that are alike give items that are alike, under any line numbers. -/
theorem alike_of_contents
    {first second : Content}
    (alike : first.Alike second)
    (number other : Nat) :
    Alike (ofContent number first) (ofContent other second) where
  places index := by
    rw [places_ofContent, places_ofContent, alike.labels]
  statements := by
    obtain ⟨names, first?⟩ := first
    obtain ⟨others, second?⟩ := second
    rw [bodies_ofContent, bodies_ofContent]
    cases alike.statements with
    | none => exact .nil
    | some same => exact .cons same .nil

end Item

/-! ## Edits -/

namespace Surface

open Grammar

/--
One edit of the text of a line: blanks at either end, a comment, another run of blanks in
place of one, or another spelling of the statement after the labels.
-/
inductive TextEdit : Text → Text → Prop where
  | blanksBefore
      {blanks : Text}
      (areBlanks : Blanks blanks)
      (text : Text) :
      TextEdit text (blanks ++ text)
  | blanksAfter
      (text : Text)
      {blanks : Text}
      (areBlanks : Blanks blanks) :
      TextEdit text (text ++ blanks)
  | comment
      (text comment : Text) :
      TextEdit text (text ++ '#' :: comment)
  | blanks
      (before : Text)
      {old new : Text}
      (oldThere : old ≠ [])
      (oldBlanks : Blanks old)
      (newThere : new ≠ [])
      (newBlanks : Blanks new)
      (after : Text) :
      TextEdit (before ++ (old ++ after)) (before ++ (new ++ after))
  | statement
      {leading labels old new tail : Text}
      {names : List Text}
      (areBlanks : Blanks leading)
      (areLabels : AreLabels labels names)
      (respelled : Statement.IsRespelled old new)
      (isTail : Tail tail) :
      TextEdit (leading ++ (labels ++ (old ++ tail))) (leading ++ (labels ++ (new ++ tail)))

/-- An instruction between labels and a comment is what a line says. -/
theorem isLine_instruction
    {leading labels text tail : Text}
    {names : List Text}
    {statement : Statement}
    (areBlanks : Blanks leading)
    (areLabels : AreLabels labels names)
    (isInstruction : IsInstruction text statement)
    (isTail : Tail tail) :
    IsLine (leading ++ (labels ++ (text ++ tail))) ⟨names, some statement⟩ := by
  have line := Content.isLine_of_remainder .nil (.mk (.instruction isInstruction) isTail)
  rw [Content.isLine_blanks_iff areBlanks, Content.isLine_labels_iff areLabels]
  exact ⟨[], by simp, line⟩

/-- An edited line has the same labels and a statement that means the same. -/
theorem TextEdit.alike
    {old new : Text}
    (edit : TextEdit old new)
    {content : Content}
    (isLine : IsLine old content) :
    ∃ other, IsLine new other ∧ content.Alike other := by
  cases edit with
  | blanksBefore areBlanks =>
      exact ⟨content, (Content.isLine_blanks_iff areBlanks).mpr isLine, .refl content⟩
  | blanksAfter _ areBlanks =>
      have isTail := Tail.mk areBlanks .none
      rw [List.append_nil] at isTail
      exact ⟨content, Content.isLine_append_tail isLine isTail, .refl content⟩
  | comment _ comment =>
      have isTail := Tail.mk .nil (.comment comment)
      exact ⟨content, Content.isLine_append_tail isLine isTail, .refl content⟩
  | blanks before oldThere oldBlanks newThere newBlanks after =>
      obtain ⟨names, statement?⟩ := content
      have spaced := Spaced.append before
        (.blanks oldThere oldBlanks newThere newBlanks (Spaced.refl after))
      obtain ⟨other?, isNew, alike⟩ := spaced.isLine isLine
      exact ⟨⟨names, other?⟩, isNew, rfl, alike⟩
  | statement areBlanks areLabels respelled isTail =>
      obtain ⟨first, second, isFirst, isSecond, alike⟩ :=
        Statement.alike_of_isRespelled respelled
      obtain rfl :=
        Content.eq_of_isLine isLine (isLine_instruction areBlanks areLabels isFirst isTail)
      exact ⟨_, isLine_instruction areBlanks areLabels isSecond isTail, rfl, .some alike⟩

end Surface

end TinyMips
