import TinyMips.Assertion.Reader
import TinyMips.Proofs.Grammar.Line
import TinyMips.Proofs.Source.Statement
import TinyMips.Proofs.Text.Trim

namespace TinyMips

/-!
# Lines that are meant as assertions

A line is meant as an assertion if only white space stands before its mark. White
space of the language is spaces and tabs, but trimming knows more of it; on a line of
the language the difference cannot show, and what follows is a comment.
-/

namespace Assertion

/-- What an assertion begins with. -/
def mark : Text :=
  Text.ofString "#assert("

/-- A text is marked exactly if it begins with the mark. -/
theorem isMarked_iff
    {text : Text} :
    isMarked text = true ↔ ∃ rest, text = mark ++ rest := by
  simp only [isMarked, Option.isSome_iff_exists, Text.dropPrefix?_eq_some_iff, mark]

/-- A text is trimmed to one with a mark exactly if only white space stands before the mark. -/
theorem isMarked_trim_iff
    {text : Text} :
    isMarked text.trim = true ↔
      ∃ white rest : Text, white.IsWhite ∧ text = white ++ (mark ++ rest) := by
  rw [isMarked_iff]
  constructor
  · rintro ⟨rest, trimmed⟩
    obtain ⟨before, after, beforeWhite, _, shape⟩ := text.exists_white_trim_white
    refine ⟨before, rest ++ after, beforeWhite, ?_⟩
    rw [shape, trimmed, List.append_assoc]
  · rintro ⟨white, rest, isWhite, rfl⟩
    have bounded : mark = '#' :: Text.ofString "assert" ++ ['('] := by
      decide
    obtain ⟨others, trimmed⟩ := Text.exists_trim_append
      (by decide : Text.isWhiteSpace '#' = false) (by decide : Text.isWhiteSpace '(' = false)
      (Text.ofString "assert") rest
    refine ⟨others, ?_⟩
    rw [Text.trim_white_append isWhite, bounded]
    simpa using trimmed

theorem isMarked_nil : isMarked [] = false := by
  decide

/-- A mark does not reach over a carriage return. -/
theorem isMarked_trim_of_return
    {text later : Text}
    (notWhite : ¬ text.IsWhite)
    (marked : isMarked (Text.trim (text ++ '\r' :: later)) = true) :
    isMarked text.trim = true := by
  obtain ⟨white, rest, isWhite, shape⟩ := isMarked_trim_iff.mp marked
  rcases List.append_eq_append_iff.mp shape with ⟨others, rfl, _⟩ | ⟨body, rfl, marksBody⟩
  · exact absurd (Text.isWhite_append_iff.mp isWhite).1 notWhite
  rw [isMarked_trim_iff]
  rcases List.append_eq_append_iff.mp marksBody with ⟨others, rfl, _⟩ | ⟨others, cut, tail⟩
  · exact ⟨white, others, isWhite, rfl⟩
  · cases others with
    | nil =>
        exact ⟨white, [], isWhite, by simpa using cut.symm⟩
    | cons c others =>
        obtain ⟨rfl, _⟩ := List.cons.inj tail
        have inMark : '\r' ∈ mark := by
          simp [cut]
        exact absurd inMark (by decide)

end Assertion

/-! ## Marked lines of the language -/

namespace Content

open Grammar

/-- What stands after the labels, if it is more than a comment, begins with a dot or a letter. -/
theorem tail_or_head_of_remainder
    {text : Text}
    {statement? : Option Statement}
    (remainder : Remainder text statement?) :
    Tail text ∨ ∃ c rest, text = c :: rest ∧ (c = '.' ∨ Text.isNameStart c = true) := by
  obtain @⟨body, tail, _, isBody, isTail⟩ := remainder
  cases isBody with
  | nothing =>
      exact .inl isTail
  | directive _ =>
      exact .inr ⟨'.', _, rfl, .inl rfl⟩
  | instruction isInstruction =>
      obtain ⟨mnemonic, rest, rfl, ⟨nonempty, letters⟩, _⟩ := letters_of_instruction isInstruction
      obtain ⟨c, others, rfl⟩ := List.exists_cons_of_ne_nil nonempty
      have letter : c.isAlpha = true := letters c (by simp)
      exact .inr ⟨c, others ++ rest ++ tail, by simp, .inr (by simp [Text.isNameStart, letter])⟩

/-- What stands on a line, if it is more than a comment, begins with a dot or as a name does. -/
theorem tail_or_head_of_isLine
    {text : Text}
    {content : Content}
    (isLine : IsLine text content) :
    Tail text ∨
      ∃ blanks c rest,
        Blanks blanks ∧
          text = blanks ++ c :: rest ∧ (c = '.' ∨ Text.isNameStart c = true) := by
  rcases Token.skip_cases text with ⟨blanks, areBlanks, shape⟩ | ⟨_, isTail⟩
  · rcases isLine_iff.mp isLine with ⟨_, remainder⟩ | ⟨name, rest, _, isIdentifier, skipped, _⟩
    · rcases tail_or_head_of_remainder remainder with isTail | ⟨c, rest, skipped, head⟩
      · left
        rw [← Token.skip_eq_nil_iff, ← Token.skip_skip]
        exact Token.skip_tail isTail
      · exact .inr ⟨blanks, c, rest, areBlanks, by rw [← skipped]; exact shape, head⟩
    · obtain @⟨first, others, starts, _⟩ := isIdentifier
      refine .inr ⟨blanks, first, others ++ ':' :: rest, areBlanks, ?_, .inr starts⟩
      rw [← List.cons_append, ← skipped]
      exact shape
  · exact .inl isTail

/-- A dot and what a name begins with are visible, and neither begins a comment. -/
theorem visible_of_head
    {c : Char}
    (head : c = '.' ∨ Text.isNameStart c = true) :
    Text.isWhiteSpace c = false ∧ c ≠ '#' := by
  rcases head with rfl | starts
  · decide
  refine ⟨?_, Text.ne_of_class starts (by decide)⟩
  rcases Bool.or_eq_true_iff.mp starts with letter | underscore
  · have bounds := Text.isAlpha_iff.mp letter
    simp [Text.isWhiteSpace, Text.whiteSpace]
    omega
  · obtain rfl := of_decide_eq_true underscore
    decide

/-- Nothing but a comment stands on a line of the language that has a mark. -/
theorem silent_of_marked
    {text : Text}
    {content : Content}
    (isLine : IsLine text content)
    (marked : Assertion.isMarked text.trim = true) :
    IsLine text silent := by
  rcases tail_or_head_of_isLine isLine with isTail | ⟨blanks, c, rest, areBlanks, rfl, head⟩
  · exact silent_of_tail isTail
  -- The visible character after the blanks would have to be the number sign of the mark.
  obtain ⟨isVisible, notSign⟩ := visible_of_head head
  obtain ⟨white, others, isWhite, shape⟩ := Assertion.isMarked_trim_iff.mp marked
  have begins : Assertion.mark = '#' :: Text.ofString "assert(" := by
    decide
  rw [begins, List.cons_append] at shape
  rcases List.append_eq_append_iff.mp shape with ⟨more, rfl, tail⟩ | ⟨more, rfl, tail⟩
  · cases more with
    | nil => exact absurd (List.cons.inj tail).1 notSign
    | cons d more =>
        obtain ⟨rfl, _⟩ := List.cons.inj tail
        have isWhiteSpace := isWhite c (by simp)
        simp [isVisible] at isWhiteSpace
  · cases more with
    | nil => exact absurd (List.cons.inj tail).1.symm notSign
    | cons d more =>
        obtain ⟨rfl, _⟩ := List.cons.inj tail
        have isBlank := areBlanks '#' (by simp)
        exact absurd isBlank (by decide)

/-- A line of blanks says nothing. -/
theorem silent_of_blanks
    {blanks : Text}
    (areBlanks : Blanks blanks) :
    IsLine blanks silent := by
  have isTail : Tail (blanks ++ []) := .mk areBlanks .none
  rw [List.append_nil] at isTail
  exact silent_of_tail isTail

end Content

end TinyMips
