import TinyMips.Proofs.Grammar.Statement
import TinyMips.Source.Content

namespace TinyMips

/-!
# Lines of the language

What is read of a line is what the grammar says of it, so the grammar says one thing
about a line at most. A name is a label exactly if a colon follows it at once, and
what labels leave is a body that its first character tells apart from the others.
-/

namespace Token

open Grammar

/-! ## Blanks and comments -/

theorem skip_append
    {blanks : Text}
    (areBlanks : Blanks blanks)
    (text : Text) :
    skip (blanks ++ text) = skip text := by
  rw [skip, skip, List.dropWhile_append_of_pos areBlanks]

/-- Nothing is left when the tail of a line is skipped. -/
theorem skip_tail
    {tail : Text}
    (isTail : Tail tail) :
    skip tail = [] := by
  obtain ⟨blanks, isComment⟩ := isTail
  rw [skip_append blanks]
  cases isComment with
  | none => rfl
  | comment text => rfl

/-- Either only blanks are skipped, or all that is there is blanks and a comment. -/
theorem skip_cases (text : Text) :
    (∃ blanks, Blanks blanks ∧ text = blanks ++ skip text) ∨ skip text = [] ∧ Tail text := by
  have splits := run_splits Text.isBlank text
  have areBlanks := only_run Text.isBlank text
  simp only [run, Cut.Splits] at splits areBlanks
  unfold skip
  split
  · rename_i comment shape
    rw [shape] at splits
    rw [← splits]
    exact .inr ⟨rfl, .mk areBlanks (.comment comment)⟩
  · exact .inl ⟨_, areBlanks, splits.symm⟩

theorem skip_skip (text : Text) :
    skip (skip text) = skip text := by
  rcases skip_cases text with ⟨blanks, areBlanks, shape⟩ | ⟨nothing, _⟩
  · calc skip (skip text)
        = skip (blanks ++ skip text) := (skip_append areBlanks (skip text)).symm
      _ = skip text := by rw [← shape]
  · rw [nothing]
    rfl

/-- Skipping leaves nothing exactly of the tail of a line. -/
theorem skip_eq_nil_iff
    {text : Text} :
    skip text = [] ↔ Tail text := by
  constructor
  · intro nothing
    rcases skip_cases text with ⟨blanks, areBlanks, shape⟩ | ⟨_, isTail⟩
    · rw [shape, nothing]
      exact .mk areBlanks .none
    · exact isTail
  · exact skip_tail

/-- What is left where blanks and a comment are skipped begins with neither. -/
theorem skip_head
    {text rest : Text}
    {c : Char}
    (shape : skip text = c :: rest) :
    Text.isBlank c = false ∧ c ≠ '#' := by
  have stops := List.head?_dropWhile_not Text.isBlank text
  unfold skip at shape
  split at shape
  · simp at shape
  · rename_i noComment
    rw [shape] at stops
    refine ⟨by simpa using stops, ?_⟩
    rintro rfl
    exact noComment rest shape

/-! ## Labels -/

/-- An identifier with a colon behind it is read as a label. -/
theorem label?_of_identifier
    {name : Text}
    (isIdentifier : Identifier name)
    (rest : Text) :
    label? (name ++ ':' :: rest) = some ⟨name, rest⟩ := by
  have colon : Stops Text.isNameRest (':' :: rest) :=
    stops_cons_iff.mpr (by decide)
  have found := identifier?_of_identifier isIdentifier colon
  simp only [label?, found]

/-- A label that is read is an identifier, with a colon between it and the rest. -/
theorem identifier_of_label?
    {text : Text}
    {label : Cut}
    (found : label? text = some label) :
    Identifier label.token ∧ label.token ++ ':' :: label.rest = text := by
  unfold label? at found
  split at found
  · rename_i name rest identifierFound
    obtain rfl := Option.some.inj found
    have isIdentifier := identifier_of_identifier? identifierFound
    have splits := identifier?_splits identifierFound
    exact ⟨isIdentifier, splits⟩
  · simp at found

end Token

namespace Content

open Grammar

/-! ## What stands after the labels -/

/-- A body and what may follow it. -/
inductive Remainder : Text → Option Statement → Prop where
  | mk
      {body tail : Text}
      {statement? : Option Statement}
      (isBody : IsBody body statement?)
      (isTail : Tail tail) :
      Remainder (body ++ tail) statement?

/-- A directive ends where a comment begins. -/
theorem remainder_of_directive (text : Text) :
    Remainder ('.' :: text) none := by
  by_cases comments : '#' ∈ text
  · obtain ⟨kept, comment, rfl, noComment⟩ := List.eq_append_cons_of_mem comments
    exact .mk (.directive noComment) (.mk .nil (.comment comment))
  · have remainder : Remainder ('.' :: text ++ []) none :=
      .mk (.directive comments) (.mk .nil .none)
    rwa [List.append_nil] at remainder

/-- An instruction is letters that blanks follow, if it does not end with them. -/
theorem letters_of_instruction
    {text : Text}
    {statement : Statement}
    (isInstruction : IsInstruction text statement) :
    ∃ mnemonic rest,
      text = mnemonic ++ rest ∧
        (mnemonic ≠ [] ∧ Only Char.isAlpha mnemonic) ∧
          ∀ tail, Tail tail → Operand.Followed (rest ++ tail) := by
  cases isInstruction with
  | bare nonempty letters =>
      exact ⟨text, [], by simp, ⟨nonempty, letters⟩, fun tail isTail => isTail.followed⟩
  | @applied mnemonic blanks operands _ nonempty letters apart areBlanks _ =>
      refine ⟨mnemonic, blanks ++ operands, by simp, ⟨nonempty, letters⟩, ?_⟩
      intro tail _
      rw [List.append_assoc]
      exact areBlanks.followed apart (operands ++ tail)

/-- A body that is there begins with neither a blank nor a number sign. -/
theorem skip_body
    {body : Text}
    {statement? : Option Statement}
    (isBody : IsBody body statement?)
    (nonempty : body ≠ [])
    (tail : Text) :
    Token.skip (body ++ tail) = body ++ tail := by
  cases isBody with
  | nothing => exact absurd rfl nonempty
  | directive _ => exact Token.skip_of_stops (by decide) (by decide)
  | instruction isInstruction =>
      obtain ⟨mnemonic, rest, rfl, ⟨nonempty, letters⟩, _⟩ := letters_of_instruction isInstruction
      obtain ⟨c, others, rfl⟩ := List.exists_cons_of_ne_nil nonempty
      have letter := letters c (by simp)
      exact Token.skip_of_stops (Text.isBlank_of_class letter (by decide) (by decide))
        (Text.ne_of_class letter (by decide))

/-- Blanks before a body do not belong to it. -/
theorem skip_remainder
    {text : Text}
    {statement? : Option Statement}
    (remainder : Remainder text statement?) :
    Remainder (Token.skip text) statement? := by
  obtain @⟨body, tail, _, isBody, isTail⟩ := remainder
  by_cases nonempty : body = []
  · subst nonempty
    have nothing : Remainder ([] ++ []) statement? :=
      .mk isBody (.mk .nil .none)
    rwa [List.nil_append, Token.skip_tail isTail]
  · rw [skip_body isBody nonempty]
    exact .mk isBody isTail

/-- A name without a colon right after it is no label. -/
theorem label?_of_followed
    {name rest : Text}
    (isIdentifier : Identifier name)
    (followed : Operand.Followed rest) :
    Token.label? (name ++ rest) = none := by
  have found := Token.identifier?_of_identifier isIdentifier (followed.stops (by decide))
  rw [Token.label?, found]
  split
  · rename_i other colon shape
    obtain ⟨_, rfl⟩ := Token.Cut.mk.inj (Option.some.inj shape)
    exact absurd (followed ':' rfl) (by decide)
  · rfl

/-- A word of letters is an identifier. -/
theorem identifier_of_letters
    {word : Text}
    (nonempty : word ≠ [])
    (letters : Only Char.isAlpha word) :
    Identifier word := by
  obtain ⟨first, rest, rfl⟩ := List.exists_cons_of_ne_nil nonempty
  constructor
  · simp [Text.isNameStart, letters first (by simp)]
  · intro c member
    simp [Text.isNameRest, Char.isAlphanum, letters c (by simp [member])]

/-- No label is found in what stands after the labels. -/
theorem label?_of_remainder
    {text : Text}
    {statement? : Option Statement}
    (skipped : Token.skip text = text)
    (remainder : Remainder text statement?) :
    Token.label? text = none := by
  obtain @⟨body, tail, _, isBody, isTail⟩ := remainder
  cases isBody with
  | nothing =>
      rw [← skipped, List.nil_append, Token.skip_tail isTail]
      rfl
  | directive _ =>
      rfl
  | instruction isInstruction =>
      obtain ⟨mnemonic, rest, rfl, ⟨nonempty, letters⟩, followed⟩ :=
        letters_of_instruction isInstruction
      rw [List.append_assoc]
      exact label?_of_followed (identifier_of_letters nonempty letters) (followed tail isTail)

/-- What is read after the labels is a body with its tail. -/
theorem remainder_of_ofBody?
    {text : Text}
    {labels : List Text}
    {content : Content}
    (found : ofBody? labels text = some content) :
    content.labels = labels ∧ Remainder text content.statement? := by
  unfold ofBody? at found
  split at found
  · obtain rfl := Option.some.inj found
    exact ⟨rfl, .mk .nothing (.mk .nil .none)⟩
  · obtain rfl := Option.some.inj found
    exact ⟨rfl, remainder_of_directive _⟩
  · split at found
    · simp at found
    · rename_i statement rest statementFound
      simp only [Option.ite_none_right_eq_some, Option.some.injEq] at found
      obtain ⟨ended, rfl⟩ := found
      obtain ⟨isInstruction, splits⟩ := Statement.instruction_of_read? statementFound
      have isTail : Tail rest := Token.skip_eq_nil_iff.mp (by simpa using ended)
      rw [← splits]
      exact ⟨rfl, .mk (.instruction isInstruction) isTail⟩

/-- An instruction with its tail is read as such. -/
theorem ofBody?_of_instruction
    {text tail : Text}
    {statement : Statement}
    (isInstruction : IsInstruction text statement)
    (isTail : Tail tail)
    (labels : List Text) :
    ofBody? labels (text ++ tail) = some ⟨labels, some statement⟩ := by
  have found := Statement.read?_of_instruction isInstruction isTail
  obtain ⟨mnemonic, rest, rfl, ⟨nonempty, letters⟩, _⟩ := letters_of_instruction isInstruction
  obtain ⟨c, others, rfl⟩ := List.exists_cons_of_ne_nil nonempty
  have notDot : c ≠ '.' := Text.ne_of_class (letters c (by simp)) (by decide)
  rw [ofBody?, found]
  · simp [Token.skip_tail isTail]
  · simp
  · intro more dot
    exact notDot (List.cons.inj dot).1

/-- A text after labels is read as what the grammar says of it. -/
theorem ofBody?_eq_some_iff
    {text : Text}
    (skipped : Token.skip text = text)
    {labels : List Text}
    {content : Content} :
    ofBody? labels text = some content ↔
      content.labels = labels ∧ Remainder text content.statement? := by
  constructor
  · exact remainder_of_ofBody?
  · rintro ⟨rfl, remainder⟩
    obtain ⟨labels, statement?⟩ := content
    obtain ⟨isBody, isTail⟩ := remainder
    cases isBody with
    | nothing =>
        rw [← skipped, List.nil_append, Token.skip_tail isTail]
        rfl
    | directive _ =>
        rfl
    | instruction isInstruction =>
        exact ofBody?_of_instruction isInstruction isTail labels

/-! ## Whole lines -/

/-- There is nothing to skip before a name. -/
theorem skip_identifier
    {name : Text}
    (isIdentifier : Identifier name)
    (rest : Text) :
    Token.skip (name ++ rest) = name ++ rest := by
  obtain ⟨starts, _⟩ := isIdentifier
  exact Token.skip_of_stops (Text.isBlank_of_class starts (by decide) (by decide))
    (Text.ne_of_class starts (by decide))

/-- A line without a label is what can stand after the labels, with blanks before it. -/
theorem isLine_of_remainder
    {blanks text : Text}
    {statement? : Option Statement}
    (areBlanks : Blanks blanks)
    (remainder : Remainder text statement?) :
    IsLine (blanks ++ text) ⟨[], statement?⟩ := by
  obtain ⟨isBody, isTail⟩ := remainder
  obtain ⟨blanksAfter, isComment⟩ := isTail
  simpa using IsLine.mk areBlanks .none isBody blanksAfter isComment

/-- A label, with blanks before it, can stand in front of any line. -/
theorem isLine_of_label
    {blanks name rest : Text}
    {names : List Text}
    {statement? : Option Statement}
    (areBlanks : Blanks blanks)
    (isIdentifier : Identifier name)
    (isLine : IsLine rest ⟨names, statement?⟩) :
    IsLine (blanks ++ (name ++ ':' :: rest)) ⟨name :: names, statement?⟩ := by
  cases isLine with
  | mk blanksBefore areLabels isBody blanksAfter isComment =>
      simpa using
        IsLine.mk areBlanks (.label isIdentifier blanksBefore areLabels) isBody blanksAfter
          isComment

/-- Blanks in front, or a comment alone, do not change what can stand after the labels. -/
theorem isLine_of_remainder_skip
    {text : Text}
    {statement? : Option Statement}
    (remainder : Remainder (Token.skip text) statement?) :
    IsLine text ⟨[], statement?⟩ := by
  rcases Token.skip_cases text with ⟨blanks, areBlanks, shape⟩ | ⟨nothing, isTail⟩
  · rw [shape]
    exact isLine_of_remainder areBlanks remainder
  · generalize Token.skip text = skipped at remainder nothing
    obtain ⟨isBody, _⟩ := remainder
    rw [(List.append_eq_nil_iff.mp nothing).1] at isBody
    exact isLine_of_remainder .nil (.mk isBody isTail)

/-- A line is what can stand after the labels, or a label and a line after it. -/
theorem isLine_iff
    {text : Text}
    {names : List Text}
    {statement? : Option Statement} :
    IsLine text ⟨names, statement?⟩ ↔
      names = [] ∧ Remainder (Token.skip text) statement? ∨
        ∃ name rest later,
          Identifier name ∧
            Token.skip text = name ++ ':' :: rest ∧
              names = name :: later ∧ IsLine rest ⟨later, statement?⟩ := by
  constructor
  · intro isLine
    cases isLine with
    | @mk leading labels body trailing comment _ _ blanksBefore areLabels isBody blanksAfter
        isComment =>
        have isTail : Tail (trailing ++ comment) := .mk blanksAfter isComment
        have skipped :
            Token.skip (leading ++ labels ++ body ++ trailing ++ comment) =
              Token.skip (labels ++ (body ++ (trailing ++ comment))) := by
          simp only [List.append_assoc, Token.skip_append blanksBefore]
        rw [skipped]
        cases areLabels with
        | none =>
            rw [List.nil_append]
            exact .inl ⟨rfl, skip_remainder (.mk isBody isTail)⟩
        | @label name blanks rest later isIdentifier areBlanks areLabels =>
            refine .inr ⟨name, _, later, isIdentifier, ?_, rfl,
              .mk areBlanks areLabels isBody blanksAfter isComment⟩
            rw [List.append_assoc, skip_identifier isIdentifier]
            simp
  · rintro (⟨rfl, remainder⟩ | ⟨name, rest, later, isIdentifier, shape, rfl, isLine⟩)
    · exact isLine_of_remainder_skip remainder
    · rcases Token.skip_cases text with ⟨blanks, areBlanks, line⟩ | ⟨nothing, _⟩
      · rw [line, shape]
        exact isLine_of_label areBlanks isIdentifier isLine
      · simp [shape] at nothing

/-- What is read from the labels on is what the grammar says. -/
theorem readLabels_ofBody?_iff
    (text : Text)
    (earlier : List Text)
    {content : Content} :
    ofBody? (readLabels earlier (Token.skip text)).1 (readLabels earlier (Token.skip text)).2 =
        some content ↔
      ∃ names,
        content.labels = earlier.reverse ++ names ∧ IsLine text ⟨names, content.statement?⟩ := by
  generalize start : Token.skip text = skipped
  fun_induction readLabels earlier skipped generalizing text with
  | case1 earlier skipped noLabel =>
      subst start
      rw [ofBody?_eq_some_iff (Token.skip_skip text)]
      constructor
      · rintro ⟨labels, remainder⟩
        exact ⟨[], by simpa using labels, isLine_of_remainder_skip remainder⟩
      · rintro ⟨names, labels, isLine⟩
        rcases isLine_iff.mp isLine with
          ⟨rfl, remainder⟩ | ⟨name, rest, later, isIdentifier, shape, rfl, _⟩
        · exact ⟨by simpa using labels, remainder⟩
        · rw [shape, Token.label?_of_identifier isIdentifier] at noLabel
          simp at noLabel
  | case2 earlier skipped label found inductionHypothesis =>
      subst start
      obtain ⟨isIdentifier, splits⟩ := Token.identifier_of_label? found
      rw [inductionHypothesis label.rest rfl]
      constructor
      · rintro ⟨names, labels, isLine⟩
        exact ⟨label.token :: names, by simpa using labels,
          isLine_iff.mpr (.inr ⟨_, _, _, isIdentifier, splits.symm, rfl, isLine⟩)⟩
      · rintro ⟨names, labels, isLine⟩
        rcases isLine_iff.mp isLine with
          ⟨_, remainder⟩ | ⟨name, rest, later, isName, shape, rfl, isLater⟩
        · rw [label?_of_remainder (Token.skip_skip text) remainder] at found
          simp at found
        · rw [shape, Token.label?_of_identifier isName] at found
          obtain rfl := Option.some.inj found
          exact ⟨later, by simpa using labels, isLater⟩

/-- What a line is read as is what the grammar says of it. -/
theorem ofLine?_eq_some_iff
    {text : Text}
    {content : Content} :
    ofLine? text = some content ↔ IsLine text content := by
  simpa [ofLine?] using readLabels_ofBody?_iff text []

end Content

namespace Statement

open Grammar

/-! ## Statements on lines -/

/-- A statement as it stands on a line, between labels and a comment, if there are any. -/
structure StandsOn (line : Text) (statement : Statement) : Prop where
  isInstruction : IsInstruction statement.text statement
  around :
    ∃ leading labels names tail,
      line = leading ++ (labels ++ (statement.text ++ tail)) ∧
        Blanks leading ∧ AreLabels labels names ∧ Tail tail

theorem text_of_isInstruction
    {text : Text}
    {statement : Statement}
    (isInstruction : IsInstruction text statement) :
    statement.text = text := by
  cases isInstruction <;> rfl

/-- A statement stands on its line. -/
theorem standsOn_of_isLine
    {line : Text}
    {names : List Text}
    {statement : Statement}
    (isLine : IsLine line ⟨names, some statement⟩) :
    statement.StandsOn line := by
  cases isLine with
  | @mk leading labels _ trailing comment _ _ areBlanks areLabels isBody areTrailing isComment =>
      cases isBody with
      | instruction isInstruction =>
          obtain rfl := text_of_isInstruction isInstruction
          exact ⟨isInstruction, leading, labels, names, trailing ++ comment, by simp, areBlanks,
            areLabels, .mk areTrailing isComment⟩

end Statement

end TinyMips
