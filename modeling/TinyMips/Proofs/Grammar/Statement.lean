import TinyMips.Proofs.Grammar.Operand
import TinyMips.Source.Statement

namespace TinyMips

/-!
# Instructions of the language

A statement reader takes as many operands as it finds. None of them is one too many:
after the last operand of an instruction only blanks and a comment can follow, and
they hold no operand.
-/

namespace Grammar

/-- What may follow the body of a line: blanks and a comment. -/
inductive Tail : Text → Prop where
  | mk
      {trailing comment : Text}
      (blanks : Blanks trailing)
      (isComment : Comment comment) :
      Tail (trailing ++ comment)

theorem Blanks.nil :
    Blanks [] := by
  simp [Blanks, Only]

theorem Blanks.head
    {c : Char}
    {text : Text}
    (blanks : Blanks (c :: text)) :
    Text.isBlank c = true :=
  blanks c (by simp)

/-- Blanks can follow an operand. -/
theorem Blanks.followed
    {blanks : Text}
    (areBlanks : Blanks blanks)
    (nonempty : blanks ≠ [])
    (rest : Text) :
    Operand.Followed (blanks ++ rest) := by
  obtain ⟨c, others, rfl⟩ := List.exists_cons_of_ne_nil nonempty
  intro first found
  obtain rfl : c = first := by simpa using found
  exact .inl areBlanks.head

/-- Blanks end where a comment begins. -/
theorem Comment.stops
    {comment : Text}
    (isComment : Comment comment) :
    Token.Stops Text.isBlank comment := by
  cases isComment with
  | none => exact Token.stops_nil Text.isBlank
  | comment text => exact Token.stops_cons_iff.mpr (by decide)

/-- Blanks and a comment begin with a blank or a number sign. -/
theorem Tail.head
    {tail : Text}
    (isTail : Tail tail) :
    ∀ c ∈ tail.head?, Text.isBlank c = true ∨ c = '#' := by
  obtain @⟨trailing, comment, blanks, isComment⟩ := isTail
  intro c first
  cases trailing with
  | nil =>
      cases isComment with
      | none => simp at first
      | comment text => exact .inr (by simpa using first.symm)
  | cons blank others =>
      obtain rfl : blank = c := by simpa using first
      exact .inl blanks.head

theorem Tail.followed
    {tail : Text}
    (isTail : Tail tail) :
    Operand.Followed tail := by
  intro c first
  rcases isTail.head c first with blank | sign
  · exact .inl blank
  · exact .inr (.inr sign)

end Grammar

namespace Statement

open Grammar

/-! ## Operands with separators before them -/

/-- The text of operands that each have a separator before them. -/
def separatedTexts (separated : List Separated) : Text :=
  separated.flatMap separatedText

/-- Separators and operands of the language. -/
def AreSeparated (separated : List Separated) : Prop :=
  ∀ one ∈ separated, Separator one.1 ∧ IsOperand one.2.text one.2

/-- Separated operands are an operand behind a separator, and more of them. -/
theorem areSeparated_cons_iff
    {one : Separated}
    {others : List Separated} :
    AreSeparated (one :: others) ↔
      (Separator one.1 ∧ IsOperand one.2.text one.2) ∧ AreSeparated others :=
  List.forall_mem_cons

/-- Operands are a first one and others with separators before them. -/
theorem operands_iff
    {text : Text}
    {operands : List Operand} :
    AreOperands text operands ↔
      ∃ (first : Operand) (others : List Separated),
        IsOperand first.text first ∧
          AreSeparated others ∧
            operands = first :: others.map Prod.snd ∧
              text = first.text ++ separatedTexts others := by
  constructor
  · intro areOperands
    induction areOperands with
    | @one text operand isOperand =>
        obtain rfl := Operand.text_of_isOperand isOperand
        exact ⟨operand, [], isOperand, by simp [AreSeparated], rfl, by simp [separatedTexts]⟩
    | @more text separator rest operand others isOperand separated _ inductionHypothesis =>
        obtain rfl := Operand.text_of_isOperand isOperand
        obtain ⟨next, later, isNext, areLater, rfl, rfl⟩ := inductionHypothesis
        refine ⟨operand, (separator, next) :: later, isOperand,
          areSeparated_cons_iff.mpr ⟨⟨separated, isNext⟩, areLater⟩, rfl, ?_⟩
        simp [separatedTexts, separatedText]
  · rintro ⟨first, others, isFirst, areSeparated, rfl, rfl⟩
    induction others generalizing first with
    | nil =>
        simpa [separatedTexts] using AreOperands.one isFirst
    | cons next later inductionHypothesis =>
        obtain ⟨⟨separated, isNext⟩, areLater⟩ := areSeparated_cons_iff.mp areSeparated
        have areOperands := inductionHypothesis next.2 isNext areLater
        simpa [separatedTexts, separatedText] using
          AreOperands.more isFirst separated areOperands

/-- A separator begins with a blank or a comma. -/
theorem separator_head
    {separator : Text}
    (isSeparator : Separator separator) :
    ∃ c rest, separator = c :: rest ∧ (Text.isBlank c = true ∨ c = ',') := by
  cases isSeparator with
  | @comma before after blanksBefore _ =>
      cases before with
      | nil => exact ⟨',', after, rfl, .inr rfl⟩
      | cons c before => exact ⟨c, _, rfl, .inl blanksBefore.head⟩
  | blanks nonempty blanks =>
      obtain ⟨c, rest, rfl⟩ := List.exists_cons_of_ne_nil nonempty
      exact ⟨c, rest, rfl, .inl blanks.head⟩

/-- Whatever comes behind an operand of a statement may follow one. -/
theorem followed_separatedTexts
    {others : List Separated}
    (areSeparated : AreSeparated others)
    {tail : Text}
    (isTail : Tail tail) :
    Operand.Followed (separatedTexts others ++ tail) := by
  cases others with
  | nil =>
      exact isTail.followed
  | cons next later =>
      obtain ⟨⟨separated, _⟩, _⟩ := areSeparated_cons_iff.mp areSeparated
      obtain ⟨c, rest, shape, kind⟩ := separator_head separated
      intro first found
      obtain rfl : c = first := by
        simpa [separatedTexts, separatedText, shape] using found
      rcases kind with blank | comma
      · exact .inl blank
      · exact .inr (.inl comma)

/-! ## What is read is an instruction -/

/-- The operands that are taken have separators before them and make up the text that is gone. -/
theorem readMore_sound
    (earlier : List Separated)
    (text : Text) :
    ∃ more rest,
      readMore earlier text = (earlier.reverse ++ more, rest) ∧
        AreSeparated more ∧ separatedTexts more ++ rest = text := by
  fun_induction readMore earlier text with
  | case1 earlier text _ =>
      exact ⟨[], text, by simp, by simp [AreSeparated], by simp [separatedTexts]⟩
  | case2 earlier text _ _ _ =>
      exact ⟨[], text, by simp, by simp [AreSeparated], by simp [separatedTexts]⟩
  | case3 earlier text separator separatorFound operand after operandFound
      inductionHypothesis =>
      obtain ⟨more, rest, taken, areSeparated, texts⟩ := inductionHypothesis
      have isSeparator := Token.separator_of_separator? separatorFound
      have isOperand := Operand.isOperand_of_read? operandFound
      have separatorSplits := (Token.separator?_splits separatorFound).2
      have operandSplits := Operand.read?_splits operandFound
      refine ⟨(separator.token, operand) :: more, rest, by simp [taken],
        areSeparated_cons_iff.mpr ⟨⟨isSeparator, isOperand⟩, areSeparated⟩, ?_⟩
      calc separatedTexts ((separator.token, operand) :: more) ++ rest
          = separator.token ++ (operand.text ++ (separatedTexts more ++ rest)) := by
            simp [separatedTexts, separatedText]
        _ = text := by rw [texts, operandSplits, separatorSplits]

/-- What is read as the operands of a statement: none, or blanks and operands. -/
theorem readOperands_sound
    (text : Text) :
    readOperands text = ([], text) ∨
      ∃ (blanks : Text) (first : Operand) (others : List Separated) (rest : Text),
        readOperands text = ((blanks, first) :: others, rest) ∧
          (blanks ≠ [] ∧ Blanks blanks) ∧
            (IsOperand first.text first ∧ AreSeparated others) ∧
              blanks ++ (first.text ++ separatedTexts others) ++ rest = text := by
  by_cases apart : (Token.run Text.isBlank text).token = []
  · exact .inl (by simp [readOperands, apart])
  cases operandFound : Operand.read? (Token.run Text.isBlank text).rest with
  | none =>
      exact .inl (by simp [readOperands, operandFound])
  | some found =>
      obtain ⟨first, after⟩ := found
      obtain ⟨others, rest, taken, areSeparated, texts⟩ :=
        readMore_sound [((Token.run Text.isBlank text).token, first)] after
      have operandSplits := Operand.read?_splits operandFound
      have blanksSplit := Token.run_splits Text.isBlank text
      refine .inr ⟨_, first, others, rest, ?_, ⟨apart, Token.only_run Text.isBlank text⟩,
        ⟨Operand.isOperand_of_read? operandFound, areSeparated⟩, ?_⟩
      · simpa [readOperands, operandFound, apart] using taken
      · rw [List.append_assoc, List.append_assoc, texts, operandSplits, blanksSplit]

/-- What is read as a statement is an instruction with the text that is gone. -/
theorem instruction_of_read?
    {text rest : Text}
    {statement : Statement}
    (found : read? text = some (statement, rest)) :
    IsInstruction statement.text statement ∧ statement.text ++ rest = text := by
  unfold read? at found
  split at found
  · simp at found
  rename_i mnemonic mnemonicFound
  obtain ⟨nonempty, letters⟩ := Token.only_of_someRun? mnemonicFound
  have splits := Token.someRun?_splits mnemonicFound
  rcases readOperands_sound mnemonic.rest with
    bare | ⟨blanks, first, others, after, taken, ⟨apart, areBlanks⟩, areOperands, texts⟩
  · simp only [bare, Option.some.injEq, Prod.mk.injEq] at found
    obtain ⟨rfl, rfl⟩ := found
    constructor
    · simpa using IsInstruction.bare nonempty letters
    · rwa [List.flatMap_nil, List.append_nil]
  · simp only [taken, Option.some.injEq, Prod.mk.injEq] at found
    obtain ⟨rfl, rfl⟩ := found
    have applied :=
      IsInstruction.applied nonempty letters apart areBlanks
        (operands_iff.mpr ⟨first, others, areOperands.1, areOperands.2, rfl, rfl⟩)
    constructor
    · simpa [separatedText, separatedTexts] using applied
    · rw [← splits, ← texts]
      simp [separatedText, separatedTexts]

/-! ## An instruction is read as itself -/

/-- Reading ends where no operand comes behind a separator. -/
theorem readMore_of_noOperand
    {text : Text}
    (noOperand :
      ∀ separator, Token.separator? text = some separator →
        Operand.read? separator.rest = none)
    (earlier : List Separated) :
    readMore earlier text = (earlier.reverse, text) := by
  rw [readMore]
  split
  · rfl
  · rename_i separator found
    split
    · rfl
    · rename_i present
      simp [noOperand separator found] at present

/-- Reading goes on behind an operand that comes behind a separator. -/
theorem readMore_of_operand
    {text rest : Text}
    {separator : Token.Cut}
    {operand : Operand}
    (separatorFound : Token.separator? text = some separator)
    (operandFound : Operand.read? separator.rest = some (operand, rest))
    (earlier : List Separated) :
    readMore earlier text = readMore ((separator.token, operand) :: earlier) rest := by
  rw [readMore]
  split
  · rename_i found
    simp [separatorFound] at found
  · rename_i other found
    obtain rfl : separator = other := Option.some.inj (separatorFound.symm.trans found)
    split
    · rename_i missing
      simp [operandFound] at missing
    · rename_i otherOperand otherRest present
      obtain ⟨rfl, rfl⟩ :=
        Prod.mk.inj (Option.some.inj (operandFound.symm.trans present))
      rfl

/-- A comment is not taken for an operand. -/
theorem read?_comment
    {comment : Text}
    (isComment : Comment comment) :
    Operand.read? comment = none := by
  cases isComment with
  | none => rfl
  | comment text => rfl

/-- No operand follows the blanks at the end of a line. -/
theorem noOperand_of_tail
    {tail : Text}
    (isTail : Tail tail) :
    ∀ separator, Token.separator? tail = some separator →
      Operand.read? separator.rest = none := by
  obtain @⟨trailing, comment, blanks, isComment⟩ := isTail
  intro separator found
  by_cases nonempty : trailing = []
  · subst nonempty
    cases isComment with
    | none => simp [Token.separator?, Token.run] at found
    | comment text => simp [Token.separator?, Token.run, Text.isBlank] at found
  · have noComma : ∀ more, comment ≠ ',' :: more := by
      rintro more rfl
      cases isComment
    rw [Token.separator?_of_separator (.blanks nonempty blanks) isComment.stops noComma] at found
    obtain rfl := Option.some.inj found
    exact read?_comment isComment

/-- A separator is cut off where the operand behind it begins. -/
theorem separator?_separatedText
    {separator rest : Text}
    {operand : Operand}
    (isSeparator : Separator separator)
    (isOperand : IsOperand operand.text operand) :
    Token.separator? (separator ++ (operand.text ++ rest)) =
      some ⟨separator, operand.text ++ rest⟩ := by
  have notBlank := Operand.notBlank_of_isOperand isOperand rest
  apply Token.separator?_of_separator isSeparator notBlank
  intro more comma
  obtain ⟨c, others, shape, _, notComma⟩ := Operand.isOperand_head isOperand
  rw [shape] at comma
  exact notComma (List.cons.inj comma).1

/-- All operands after the first one are taken, up to the end of what a line says. -/
theorem readMore_of_areSeparated
    {others : List Separated}
    (areSeparated : AreSeparated others)
    {tail : Text}
    (isTail : Tail tail)
    (earlier : List Separated) :
    readMore earlier (separatedTexts others ++ tail) = (earlier.reverse ++ others, tail) := by
  induction others generalizing earlier with
  | nil =>
      rw [List.append_nil]
      exact readMore_of_noOperand (noOperand_of_tail isTail) earlier
  | cons next later inductionHypothesis =>
      obtain ⟨separator, operand⟩ := next
      obtain ⟨⟨isSeparator, isOperand⟩, areLater⟩ := areSeparated_cons_iff.mp areSeparated
      have shape :
          separatedTexts ((separator, operand) :: later) ++ tail =
            separator ++ (operand.text ++ (separatedTexts later ++ tail)) := by
        simp [separatedTexts, separatedText]
      rw [shape, readMore_of_operand (separator?_separatedText isSeparator isOperand)
        (Operand.read?_of_isOperand isOperand (followed_separatedTexts areLater isTail)),
        inductionHypothesis areLater]
      simp

/-- There are no operands in the tail of a line. -/
theorem readOperands_of_tail
    {tail : Text}
    (isTail : Tail tail) :
    readOperands tail = ([], tail) := by
  obtain ⟨blanks, isComment⟩ := isTail
  simp [readOperands, Token.run_append blanks isComment.stops, read?_comment isComment]

/-- Operands are read with what stands before each, up to the tail of the line. -/
theorem readOperands_of_operands
    {blanks tail : Text}
    {first : Operand}
    {others : List Separated}
    (apart : blanks ≠ [])
    (areBlanks : Blanks blanks)
    (isFirst : IsOperand first.text first)
    (areSeparated : AreSeparated others)
    (isTail : Tail tail) :
    readOperands (blanks ++ (first.text ++ (separatedTexts others ++ tail))) =
      ((blanks, first) :: others, tail) := by
  have notBlank := Operand.notBlank_of_isOperand isFirst (separatedTexts others ++ tail)
  have firstRead :=
    Operand.read?_of_isOperand isFirst (followed_separatedTexts areSeparated isTail)
  simp [readOperands, Token.run_append areBlanks notBlank, apart, firstRead,
    readMore_of_areSeparated areSeparated isTail]

/-- An instruction with blanks and a comment after it is read as itself. -/
theorem read?_of_instruction
    {text tail : Text}
    {statement : Statement}
    (isInstruction : IsInstruction text statement)
    (isTail : Tail tail) :
    read? (text ++ tail) = some (statement, tail) := by
  cases isInstruction with
  | bare nonempty letters =>
      have mnemonicFound : Token.mnemonic? (text ++ tail) = some ⟨text, tail⟩ :=
        Token.someRun?_append nonempty letters (isTail.followed.stops (by decide))
      simp [read?, mnemonicFound, readOperands_of_tail isTail]
  | @applied mnemonic blanks operandTexts operands nonempty letters apart areBlanks
      areOperands =>
      obtain ⟨first, others, isFirst, areSeparated, rfl, rfl⟩ := operands_iff.mp areOperands
      have mnemonicFound :
          Token.mnemonic?
              (mnemonic ++ (blanks ++ (first.text ++ (separatedTexts others ++ tail)))) =
            some ⟨mnemonic, blanks ++ (first.text ++ (separatedTexts others ++ tail))⟩ :=
        Token.someRun?_append nonempty letters
          ((areBlanks.followed apart _).stops (by decide))
      have operandsFound := readOperands_of_operands apart areBlanks isFirst areSeparated isTail
      simp only [List.append_assoc, read?, mnemonicFound, operandsFound]
      simp [separatedText, separatedTexts]

end Statement

end TinyMips
