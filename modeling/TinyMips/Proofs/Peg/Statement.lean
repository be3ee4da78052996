import TinyMips.Proofs.Grammar.Statement
import TinyMips.Proofs.Peg.Token

namespace TinyMips

/-!
# Statements by their rules

The readers of operands and statements find what the rules fit, and the places that they
give for failures are the furthest ones at which a rule is tried in vain.
-/

namespace Furthest

theorem place_single
    (position : Nat)
    (part : Part) :
    (single position part).place = .some position :=
  rfl

/-- The merged place is the further one. -/
theorem place_merge (first second : Furthest) :
    (first.merge second).place = first.place ⊔ second.place := by
  obtain ⟨position, parts⟩ := first
  obtain ⟨otherPosition, otherParts⟩ := second
  cases otherParts with
  | nil =>
      simp [merge, place]
  | cons otherPart otherParts =>
      cases parts with
      | nil =>
          simp [merge, place]
      | cons part parts =>
          rcases Nat.lt_trichotomy position otherPosition with lt | rfl | gt
          · simp [merge, place, lt, lt.le, Nat.not_lt.mpr lt.le]
          · simp [merge, place]
          · simp [merge, place, gt, gt.le]

/-- A failure, if there is one, does not lie before a position. -/
def From
    (failure : Furthest)
    (position : Nat) :
    Prop :=
  failure.parts ≠ [] → position ≤ failure.position

/-- The place of a missing token is not before the token. -/
theorem from_ofToken
    (part : Part)
    {position start : Nat}
    (le : start ≤ position)
    (cut? : Option Token.Cut) :
    (ofToken part position cut?).From start := by
  cases cut? with
  | none => exact fun _ => le
  | some cut => exact fun failed => absurd rfl failed

theorem From.merge
    {first second : Furthest}
    {position : Nat}
    (firstFrom : first.From position)
    (secondFrom : second.From position) :
    (first.merge second).From position := by
  unfold Furthest.merge
  split
  · exact firstFrom
  · split
    · exact secondFrom
    · rename_i present
      refine fun _ => firstFrom ?_
      rintro none
      simp [none] at present

theorem from_ofBase
    {position start : Nat}
    (le : start ≤ position)
    (text : Text) :
    (ofBase position text).From start := by
  unfold ofBase
  split
  · exact fun failed => absurd rfl failed
  · exact From.merge (fun _ => le) (from_ofToken .identifier le (Token.identifier? text))

/-- A part that failed after attempts inside it leaves the furthest of them or itself. -/
theorem place_within
    {position : Nat}
    {inner : Furthest}
    (behind : inner.From position)
    (part : Part) :
    (within part position inner).place = inner.place ⊔ .some position := by
  obtain ⟨furthest, parts⟩ := inner
  rcases parts with _ | ⟨only, _ | ⟨second, others⟩⟩
  · simp [within, place, single]
  · simpa [within, place] using behind (by simp)
  · have le : position ≤ furthest := behind (by simp)
    simp only [within]
    split
    · simp [place, le]
    · obtain rfl : furthest = position := by omega
      simp [place, single]

theorem place_ofToken_some
    (part : Part)
    (position : Nat)
    (cut : Token.Cut) :
    (ofToken part position (some cut)).place = ⊥ :=
  rfl

/-- A missing token leaves the place where it was tried. -/
theorem place_ofToken_none
    (part : Part)
    (position : Nat) :
    (ofToken part position none).place = .some position :=
  rfl

end Furthest

namespace Peg

/-- An operand that was looked for, with the failures on the way. -/
def Attempt.ofOperand
    (position : Nat)
    (read? : Option (Operand × Text))
    (failure : Furthest) :
    Attempt :=
  ⟨read?.map fun (operand, rest) => ⟨position + operand.text.length, rest⟩, failure.place⟩

namespace Rules

open Expression Furthest

/-! ## Operands -/

/-- An offset that is missing is no failure, yet its place is noted. -/
theorem run_offset
    (position : Nat)
    (text : Text) :
    (optional immediate).run ⟨position, text⟩ =
      ⟨some ⟨position + ((Operand.offset text).1.getD []).length, (Operand.offset text).2⟩,
        (ofToken .immediate position (Token.immediate? text)).place⟩ := by
  rw [run_optional, run_immediate, Operand.offset]
  cases Token.immediate? text <;> rfl

/-- A base is a register or an identifier, whichever the reader finds. -/
theorem run_base
    (position : Nat)
    (text : Text) :
    (choice register identifier).run ⟨position, text⟩ =
      ⟨(Operand.base? text).map fun cut => ⟨position + cut.token.length, cut.rest⟩,
        (ofBase position text).place⟩ := by
  rw [run_choice, run_register, run_identifier, Operand.base?, ofBase]
  cases Token.register? text with
  | some cut => rfl
  | none => 
    rw [place_merge]
    rfl

/-- A base is followed by a parenthesis. -/
theorem run_base_of_closed
    {text base rest : Text}
    (found : Operand.base? text = some ⟨base, ')' :: rest⟩)
    (position : Nat) :
    (sequence (choice register identifier) (exactly ')')).run ⟨position, text⟩ =
      ⟨some ⟨position + base.length + 1, rest⟩, (ofBase position text).place⟩ := by
  rw [run_sequence, run_base, found, Option.map_some, Attempt.andThen_some, run_exactly_cons]
  simp [Attempt.noting, Attempt.fit]

/-- A base without its closing parenthesis fails, and only the base leaves a place. -/
theorem run_base_of_open
    {text : Text}
    (notClosed : ∀ base rest, Operand.base? text ≠ some ⟨base, ')' :: rest⟩)
    (position : Nat) :
    (sequence (choice register identifier) (exactly ')')).run ⟨position, text⟩ =
      ⟨none, (ofBase position text).place⟩ := by
  rw [run_sequence, run_base]
  cases found : Operand.base? text with
  | none =>
      rfl
  | some cut =>
      have differs : ∀ rest, cut.rest ≠ ')' :: rest := by
        intro rest shape
        exact notClosed cut.token rest (by rw [found, ← shape])
      rw [Option.map_some, Attempt.andThen_some, run_exactly_of_ne differs]
      simp [Attempt.noting, Attempt.misfit]

/-- The reader finds a memory operand in an offset and a base between parentheses. -/
theorem readMemory?_of_closed
    {text inside base rest : Text}
    {offset? : Option Text}
    (offsetFound : Operand.offset text = (offset?, '(' :: inside))
    (baseFound : Operand.base? inside = some ⟨base, ')' :: rest⟩) :
    Operand.readMemory? text = some (.memory offset? base, rest) := by
  rw [Operand.readMemory?, offsetFound]
  simp only [baseFound]

/-- The reader finds no memory operand where the parenthesis is not closed. -/
theorem readMemory?_of_open
    {text inside : Text}
    {offset? : Option Text}
    (offsetFound : Operand.offset text = (offset?, '(' :: inside))
    (notClosed : ∀ base rest, Operand.base? inside ≠ some ⟨base, ')' :: rest⟩) :
    Operand.readMemory? text = none := by
  unfold Operand.readMemory?
  split
  · rename_i opened
    obtain ⟨rfl, inner⟩ := Prod.mk.inj (opened.symm.trans offsetFound)
    obtain rfl := (List.cons.inj inner).2
    split
    · rename_i base rest found
      exact absurd found (notClosed base rest)
    · rfl
  · rfl

/-- A rule for operands remembers an operand that it does not find. -/
theorem run_rule_ofOperand
    {name : RuleName}
    {body : Expression}
    {position : Nat}
    {text : Text}
    {read? : Option (Operand × Text)}
    {inner : Furthest}
    (ran : body.run ⟨position, text⟩ = .ofOperand position read? inner)
    (innerFrom : inner.From position)
    (part : Part) :
    (rule name body).run ⟨position, text⟩ =
      .ofOperand position read? (if read?.isSome then inner else within part position inner) := by
  rw [run_rule, ran]
  cases read? with
  | none =>
      rw [if_neg (by simp), Attempt.ofOperand, Attempt.ofOperand, place_within innerFrom]
      rfl
  | some found =>
      rfl

/-- A memory operand fits exactly where the reader finds one. -/
theorem run_memory
    (position : Nat)
    (text : Text) :
    memory.run ⟨position, text⟩ =
      .ofOperand position (Operand.readMemory? text) (ofMemory position text) := by
  have offsetFrom := from_ofToken .immediate (Nat.le_refl position) (Token.immediate? text)
  unfold ofMemory
  split
  rename_i offset? after offsetFound
  apply run_rule_ofOperand
  · rw [run_sequence, run_offset, Attempt.andThen_some, run_sequence, offsetFound]
    split
    · rename_i inside
      rw [run_exactly_cons, Attempt.andThen_fit]
      by_cases closed : ∃ base rest, Operand.base? inside = some ⟨base, ')' :: rest⟩
      · obtain ⟨base, rest, baseFound⟩ := closed
        have length :
            (Operand.memory offset? base).text.length =
              (offset?.getD []).length + 1 + base.length + 1 := by
          simp only [Operand.text, List.length_append, List.length_cons, List.length_nil]
          omega
        rw [run_base_of_closed baseFound, readMemory?_of_closed offsetFound baseFound,
          Attempt.ofOperand, place_merge, Option.map_some]
        simp only [Attempt.noting, length, Nat.add_assoc]
      · have notClosed : ∀ base rest, Operand.base? inside ≠ some ⟨base, ')' :: rest⟩ :=
          fun base rest found => closed ⟨base, rest, found⟩
        rw [run_base_of_open notClosed, readMemory?_of_open offsetFound notClosed]
        simp [Attempt.noting, Attempt.ofOperand, place_merge]
    · rename_i notOpened
      rw [run_exactly_of_ne notOpened, Attempt.andThen_misfit,
        Operand.readMemory?_of_offset offsetFound notOpened]
      simp [Attempt.noting, Attempt.misfit, Attempt.ofOperand]
  · split
    · exact offsetFrom.merge (from_ofBase (by omega) _)
    · exact offsetFrom

/-- An operand fits exactly where the reader finds one, and leaves the same furthest place. -/
theorem run_operand
    (position : Nat)
    (text : Text) :
    operand.run ⟨position, text⟩ =
      .ofOperand position (Operand.read? text) (Furthest.ofOperand position text) := by
  rw [operand, run_choice, run_choice, run_choice, run_memory, run_register, run_immediate,
    run_identifier, Operand.read?, Furthest.ofOperand]
  cases Operand.readMemory? text with
  | some found => rfl
  | none =>
      cases Token.register? text with
      | some cut =>
          simp [Attempt.ofOperand, Attempt.ofToken, Attempt.orElse_none, Attempt.orElse_some,
            Attempt.noting, Operand.ofToken?, Operand.text, place_merge]
      | none =>
          cases Token.immediate? text with
          | some cut =>
              simp [Attempt.ofOperand, Attempt.ofToken, Attempt.orElse_none, Attempt.orElse_some,
                Attempt.noting, Operand.ofToken?, Operand.text, place_merge, max_assoc]
          | none =>
              cases Token.identifier? text <;>
                simp [Attempt.ofOperand, Attempt.ofToken, Attempt.orElse_none, 
                  Attempt.noting, Operand.ofToken?, Operand.text, place_merge, max_assoc]

/-! ## Operands with separators between them -/

/-- A separator fits exactly where the reader finds one. -/
theorem run_separator
    (position : Nat)
    (text : Text) :
    separator.run ⟨position, text⟩ = .ofCut position (Token.separator? text) := by
  rw [separator, blank, run_choice, run_sequence, run_repetition_character, Attempt.andThen_fit,
    run_sequence, run_atLeastOnce_character, Token.separator?]
  generalize blanksFound : Token.run Text.isBlank text = blanks
  obtain ⟨token, after⟩ := blanks
  simp only [Token.someRun?, blanksFound]
  by_cases comma : ∃ rest, after = ',' :: rest
  · obtain ⟨rest, rfl⟩ := comma
    rw [run_exactly_cons, Attempt.andThen_fit, run_repetition_character]
    simp [Attempt.ofCut, Attempt.fit, Attempt.orElse_some]
    omega
  · rw [run_exactly_of_ne fun rest shape => comma ⟨rest, shape⟩, Attempt.andThen_misfit,
      Attempt.misfit_orElse]
    symm
    split
    · rename_i rest
      exact absurd ⟨rest, rfl⟩ comma
    · rfl

/-- A separator and an operand are found where the readers find them. -/
theorem run_separated
    (position : Nat)
    (text : Text) :
    (sequence separator operand).run ⟨position, text⟩ =
      match Token.separator? text with
      | none => .misfit
      | some cut =>
          .ofOperand (position + cut.token.length) (Operand.read? cut.rest)
            (Furthest.ofOperand (position + cut.token.length) cut.rest) := by
  rw [run_sequence, run_separator]
  cases Token.separator? text with
  | none => rfl
  | some cut =>
      exact (Attempt.noting_bot _).trans (run_operand (position + cut.token.length) cut.rest)

/-- As many operands are found as are read, and the failures on the way are those reported. -/
theorem run_moreOperands
    (earlier : List Statement.Separated)
    (noted : Furthest)
    (position : Nat)
    (text : Text) :
    ∃ next furthest,
      (repetition (sequence separator operand)).run ⟨position, text⟩ = ⟨some next, furthest⟩ ∧
        next.rest = (Statement.readMore earlier text).2 ∧
          noted.place ⊔ furthest = (ofMoreOperands noted position text).place := by
  fun_induction ofMoreOperands noted position text generalizing earlier with
  | case1 noted position text separatorMissing =>
      have failed : (sequence separator operand).run ⟨position, text⟩ = .misfit := by
        rw [run_separated, separatorMissing]
      refine ⟨⟨position, text⟩, ⊥, repeated_of_none failed, ?_, by simp⟩
      rw [Statement.readMore_of_noOperand (by simp [separatorMissing])]
  | case2 noted position text cut separatorFound start found operandMissing =>
      have failed :
          (sequence separator operand).run ⟨position, text⟩ =
            ⟨none, (Furthest.ofOperand start cut.rest).place⟩ := by
        rw [run_separated, separatorFound]
        simp only [operandMissing]
        rfl
      refine ⟨⟨position, text⟩, _, repeated_of_none failed, ?_, (place_merge _ _).symm⟩
      rw [Statement.readMore_of_noOperand]
      intro separator other
      obtain rfl := Option.some.inj (separatorFound.symm.trans other)
      exact operandMissing
  | case3 noted position text cut separatorFound start found operand rest operandFound
      inductionHypothesis =>
      obtain ⟨next, furthest, ran, left, places⟩ :=
        inductionHypothesis ((cut.token, operand) :: earlier)
      have fits :
          (sequence separator Rules.operand).run ⟨position, text⟩ =
            ⟨some ⟨start + operand.text.length, rest⟩,
              (Furthest.ofOperand start cut.rest).place⟩ := by
        rw [run_separated, separatorFound]
        simp only [operandFound]
        rfl
      have shorter := Statement.rest_length_lt separatorFound operandFound
      have goesOn := repeated_of_some fits shorter
      refine ⟨next, _, goesOn.trans (congrArg (Attempt.noting · _) ran), ?_, ?_⟩
      · rw [left, Statement.readMore_of_operand separatorFound operandFound]
      · rw [← places, place_merge, sup_assoc]

theorem run_operands_of_none
    {position : Nat}
    {text : Text}
    (missing : Operand.read? text = none) :
    operands.run ⟨position, text⟩ = ⟨none, (Furthest.ofOperand position text).place⟩ := by
  rw [operands, run_sequence, run_operand, missing]
  rfl

/-- Behind a first operand, the operands go on as the reader does. -/
theorem run_operands_of_some
    {position : Nat}
    {text rest : Text}
    {operand : Operand}
    (found : Operand.read? text = some (operand, rest))
    (earlier : List Statement.Separated) :
    ∃ next,
      operands.run ⟨position, text⟩ =
          ⟨some next,
            (ofMoreOperands (Furthest.ofOperand position text)
              (position + operand.text.length) rest).place⟩ ∧
        next.rest = (Statement.readMore earlier rest).2 := by
  obtain ⟨next, furthest, ran, left, places⟩ :=
    run_moreOperands earlier (Furthest.ofOperand position text)
      (position + operand.text.length) rest
  refine ⟨next, ?_, left⟩
  rw [operands, run_sequence, run_operand, found, ← places]
  exact congrArg (Attempt.noting · _) ran

/-- The operands of a statement, or nothing where there are none. -/
theorem run_someOperands
    (position : Nat)
    (text : Text) :
    ∃ next,
      (optional (sequence (atLeastOnce blank) operands)).run ⟨position, text⟩ =
          ⟨some next, (ofOperands position text).place⟩ ∧
        next.rest = (Statement.readOperands text).2 := by
  rw [run_optional, run_sequence, blank, run_atLeastOnce_character, Token.someRun?,
    Statement.readOperands, ofOperands]
  generalize Token.run Text.isBlank text = blanks
  by_cases apart : blanks.token.isEmpty
  · simp only [apart, if_true]
    exact ⟨⟨position, text⟩, rfl, rfl⟩
  · simp only [apart, Bool.false_eq_true, if_false]
    rw [Attempt.ofCut, Option.map_some, Attempt.andThen_some, Attempt.noting_bot]
    cases operandFound : Operand.read? blanks.rest with
    | none =>
        rw [run_operands_of_none operandFound, Attempt.orElse_none]
        exact ⟨⟨position, text⟩, by simp [Attempt.noting, Attempt.fit], rfl⟩
    | some found =>
        obtain ⟨operand, rest⟩ := found
        obtain ⟨next, ran, left⟩ :=
          run_operands_of_some operandFound [(blanks.token, operand)]
        rw [ran, Attempt.orElse_some]
        exact ⟨next, rfl, left⟩

/-- A statement is found where one is read, and the failures on the way are those reported. -/
theorem run_instruction
    (position : Nat)
    (text : Text) :
    instruction.run ⟨position, text⟩ =
      ⟨(Statement.read? text).map fun (statement, rest) =>
          ⟨position + statement.text.length, rest⟩,
        (ofStatement position text).place⟩ := by
  cases mnemonicFound : Token.mnemonic? text with
  | none =>
      rw [instruction, run_rule, run_sequence, run_mnemonic, ofStatement, Statement.read?,
        mnemonicFound]
      simp [Attempt.ofToken, Attempt.andThen_none, Attempt.orElse_none, Attempt.failed,
        Attempt.noting, place_ofToken_none, place_single]
  | some cut =>
      obtain ⟨next, ran, left⟩ :=
        run_someOperands (position + cut.token.length) cut.rest
      have found :
          instruction.run ⟨position, text⟩ = ⟨some next, (ofStatement position text).place⟩ := by
        rw [instruction, run_rule, run_sequence, run_mnemonic, ofStatement, mnemonicFound,
          Attempt.ofToken, Option.map_some, Attempt.andThen_some, ran]
        simp [Attempt.noting, Attempt.orElse_some, place_ofToken_some]
      obtain ⟨statement, read⟩ :
          ∃ statement, Statement.read? text = some (statement, next.rest) := by
        rw [Statement.read?, mnemonicFound, left]
        exact ⟨_, rfl⟩
      -- The place after the statement is where the text that is left begins.
      have splits := congrArg List.length (Statement.instruction_of_read? read).2
      have limit := (behind_of_run found).limit
      simp only [Cursor.limit, ← splits, List.length_append] at limit
      obtain ⟨reached, rest⟩ := next
      obtain rfl : reached = position + statement.text.length := by
        simp only at limit
        omega
      rw [found, read]
      rfl

end Rules

end Peg

end TinyMips
