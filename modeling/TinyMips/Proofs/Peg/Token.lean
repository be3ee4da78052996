import TinyMips.Proofs.Grammar.Token
import TinyMips.Proofs.Peg.Rules
import TinyMips.Source.Furthest

namespace TinyMips

/-- The place of a failure, if there is one. -/
def Furthest.place (failure : Furthest) : WithBot Nat :=
  if failure.parts.isEmpty then ⊥ else .some failure.position

namespace Peg

/-!
# Tokens by their rules

Each token reader finds what its rule fits, and it leaves the same text.
-/

namespace Attempt

/-- A token that was looked for, without a trace of a failure. -/
def ofCut
    (position : Nat)
    (cut? : Option Token.Cut) :
    Attempt :=
  ⟨cut?.map fun cut => ⟨position + cut.token.length, cut.rest⟩, ⊥⟩

/-- A token that was looked for, with the failure to find it. -/
def ofToken
    (part : Part)
    (position : Nat)
    (cut? : Option Token.Cut) :
    Attempt :=
  ⟨cut?.map fun cut => ⟨position + cut.token.length, cut.rest⟩,
    (Furthest.ofToken part position cut?).place⟩

end Attempt

namespace Expression

variable {position : Nat} {text : Text}

theorem run_character_cons
    (inClass : Char → Bool)
    (position : Nat)
    (c : Char)
    (text : Text) :
    (character inClass).run ⟨position, c :: text⟩ =
      if inClass c then .fit ⟨position + 1, text⟩ else .misfit :=
  rfl

/-- Characters of one class are taken as long as there are any. -/
theorem run_repetition_character
    (inClass : Char → Bool)
    (position : Nat)
    (text : Text) :
    (repetition (character inClass)).run ⟨position, text⟩ =
      .fit ⟨position + (Token.run inClass text).token.length, (Token.run inClass text).rest⟩ := by
  induction text generalizing position with
  | nil =>
      exact repeated_of_none rfl
  | cons c text inductionHypothesis =>
      by_cases inside : inClass c
      · have found : (character inClass).run ⟨position, c :: text⟩ = .fit ⟨position + 1, text⟩ := by
          simp [run_character_cons, inside]
        have goesOn :
            (repetition (character inClass)).run ⟨position, c :: text⟩ =
              ((repetition (character inClass)).run ⟨position + 1, text⟩).noting ⊥ :=
          repeated_of_some found (by simp)
        rw [goesOn, Attempt.noting_bot, inductionHypothesis]
        simp [Token.run, inside, Nat.add_assoc, Nat.add_comm 1]
      · have failed : (character inClass).run ⟨position, c :: text⟩ = .misfit := by
          simp [run_character_cons, inside]
        have stopped :
            (repetition (character inClass)).run ⟨position, c :: text⟩ =
              .fit ⟨position, c :: text⟩ :=
          repeated_of_none failed
        rw [stopped]
        simp [Token.run, inside]

/-- A run of characters is found where it is not empty. -/
theorem run_atLeastOnce_character
    (inClass : Char → Bool)
    (position : Nat)
    (text : Text) :
    (atLeastOnce (character inClass)).run ⟨position, text⟩ =
      .ofCut position (Token.someRun? inClass text) := by
  cases text with
  | nil =>
      rfl
  | cons c text =>
      rw [atLeastOnce, run_sequence, run_character_cons]
      by_cases inside : inClass c
      · rw [if_pos inside, Attempt.andThen_fit, run_repetition_character]
        simp [Attempt.ofCut, Attempt.fit, Token.someRun?, Token.run, inside, Nat.add_assoc,
          Nat.add_comm 1]
      · rw [if_neg inside, Attempt.andThen_misfit]
        simp [Attempt.ofCut, Attempt.misfit, Token.someRun?, Token.run, inside]

theorem run_exactly_cons_of_ne
    {c first : Char}
    (differs : first ≠ c)
    (position : Nat)
    (text : Text) :
    (exactly c).run ⟨position, first :: text⟩ = .misfit := by
  simp [exactly, run_character_cons, differs]

theorem run_exactly_of_ne
    {c : Char}
    (differs : ∀ rest, text ≠ c :: rest)
    (position : Nat) :
    (exactly c).run ⟨position, text⟩ = .misfit := by
  cases text with
  | nil =>
      rfl
  | cons first text =>
      apply run_exactly_cons_of_ne
      rintro rfl
      exact differs text rfl

theorem run_exactly_cons
    (c : Char)
    (position : Nat)
    (text : Text) :
    (exactly c).run ⟨position, c :: text⟩ = .fit ⟨position + 1, text⟩ := by
  simp [exactly, run_character_cons]

/-- A text begins with a run of a class, and what follows does not begin with the class. -/
theorem exists_run_append
    (inClass : Char → Bool)
    (text : Text) :
    ∃ word rest, text = word ++ rest ∧ Grammar.Only inClass word ∧ Token.Stops inClass rest :=
  ⟨(Token.run inClass text).token, (Token.run inClass text).rest,
    (Token.run_splits inClass text).symm, Token.only_run inClass text,
    Token.stops_run inClass text⟩

/--
Characters of one class that no character of a wider class follows are all the
characters of the wider class.
-/
theorem run_wholeRun
    {inner outer : Char → Bool}
    (wider : ∀ c, inner c = true → outer c = true)
    (position : Nat)
    (text : Text) :
    (sequence (atLeastOnce (character inner)) (absence (character outer))).run ⟨position, text⟩ =
      .ofCut position
        (if !(Token.run outer text).token.isEmpty && (Token.run outer text).token.all inner then
          some (Token.run outer text)
        else
          none) := by
  obtain ⟨word, rest, rfl, inside, stops⟩ := exists_run_append inner text
  have outside : ∀ c ∈ word, outer c = true := fun c member => wider c (inside c member)
  have whole :
      Token.run outer (word ++ rest) =
        ⟨word ++ (Token.run outer rest).token, (Token.run outer rest).rest⟩ := by
    simp only [Token.run, List.takeWhile_append_of_pos outside,
      List.dropWhile_append_of_pos outside]
  have allInside : word.all inner = true := List.all_eq_true.mpr inside
  rw [run_sequence, run_atLeastOnce_character, whole, Token.someRun?,
    Token.run_append inside stops]
  cases rest with
  | nil =>
      cases word with
      | nil => rfl
      | cons first word =>
          simp [Token.run, allInside, Attempt.ofCut, Attempt.andThen_some, run, Attempt.fit,
            Attempt.misfit]
  | cons c rest =>
      have notInner := Token.stops_cons_iff.mp stops
      by_cases inOuter : outer c
      · cases word with
        | nil =>
            simp [Token.run, inOuter, notInner, Attempt.ofCut, Attempt.andThen_none]
        | cons first word =>
            simp [Token.run, inOuter, notInner, Attempt.ofCut, Attempt.andThen_some, run,
              Attempt.fit, Attempt.misfit]
      · cases word with
        | nil =>
            simp [Token.run, inOuter, Attempt.ofCut, Attempt.andThen_none]
        | cons first word =>
            simp [Token.run, inOuter, allInside, Attempt.ofCut, Attempt.andThen_some, run,
              Attempt.fit, Attempt.misfit]

end Expression

namespace Rules

open Expression

variable {position : Nat} {text : Text}

/-- A rule remembers the token that it does not find. -/
theorem run_rule_ofCut
    {name : RuleName}
    {body : Expression}
    {cut? : Option Token.Cut}
    (ran : body.run ⟨position, text⟩ = .ofCut position cut?)
    (part : Part) :
    (rule name body).run ⟨position, text⟩ = .ofToken part position cut? := by
  rw [run_rule, ran]
  cases cut? <;> rfl

/-- An identifier fits exactly where the reader cuts one off. -/
theorem run_identifier
    (position : Nat)
    (text : Text) :
    identifier.run ⟨position, text⟩ = .ofToken .identifier position (Token.identifier? text) := by
  apply run_rule_ofCut
  cases text with
  | nil =>
      rfl
  | cons c text =>
      rw [run_sequence, run_character_cons, Token.identifier?]
      split
      · rw [Attempt.andThen_fit, run_repetition_character]
        simp [Attempt.ofCut, Attempt.fit, Nat.add_assoc, Nat.add_comm 1]
      · rfl

theorem run_register
    (position : Nat)
    (text : Text) :
    register.run ⟨position, text⟩ = .ofToken .register position (Token.register? text) := by
  apply run_rule_ofCut
  cases text with
  | nil =>
      rfl
  | cons c text =>
      rw [run_sequence]
      by_cases dollar : c = '$'
      · subst dollar
        rw [run_exactly_cons, Attempt.andThen_fit, run_atLeastOnce_character, Token.register?]
        cases Token.someRun? Char.isAlphanum text with
        | none => rfl
        | some cut => simp [Attempt.ofCut, Nat.add_assoc, Nat.add_comm 1]
      · rw [run_exactly_cons_of_ne dollar, Token.register?]
        · rfl
        · intro name shape
          exact dollar (List.cons.inj shape).1

theorem run_mnemonic
    (position : Nat)
    (text : Text) :
    mnemonic.run ⟨position, text⟩ = .ofToken .mnemonic position (Token.mnemonic? text) :=
  run_rule_ofCut (run_atLeastOnce_character Char.isAlpha position text) .mnemonic

/-! ## Integers -/

/-- A sign is optional, and the reader cuts off the same one. -/
theorem run_sign
    (position : Nat)
    (text : Text) :
    sign.run ⟨position, text⟩ =
      .fit ⟨position + (Token.sign text).token.length, (Token.sign text).rest⟩ := by
  cases text with
  | nil =>
      rfl
  | cons c text =>
      by_cases minus : c = '-'
      · subst minus
        rfl
      · by_cases plus : c = '+'
        · subst plus
          rfl
        · rw [sign, run_optional, run_choice, run_exactly_cons_of_ne minus,
            run_exactly_cons_of_ne plus, Token.sign]
          · simp
          · intro rest shape
            exact minus (List.cons.inj shape).1
          · intro rest shape
            exact plus (List.cons.inj shape).1

/-- The mark of base sixteen takes two characters, with a small or a capital letter. -/
theorem run_hexMark
    {mark : Char}
    (marked : mark = 'x' ∨ mark = 'X')
    (position : Nat)
    (text : Text) :
    hexMark.run ⟨position, '0' :: mark :: text⟩ = .fit ⟨position + 2, text⟩ := by
  rcases marked with rfl | rfl <;> rfl

/-- Without a letter behind its zero there is no mark of base sixteen. -/
theorem run_hexMark_of_unmarked
    (unmarked : ∀ mark, (mark = 'x' ∨ mark = 'X') → ∀ rest, text ≠ '0' :: mark :: rest) :
    hexMark.run ⟨position, text⟩ = .misfit := by
  rcases text with _ | ⟨c, _ | ⟨mark, rest⟩⟩
  · rfl
  · rw [hexMark, run_choice, run_sequence, run_sequence]
    by_cases zero : c = '0'
    · subst zero
      rfl
    · simp [run_exactly_cons_of_ne zero]
  · rw [hexMark, run_choice, run_sequence, run_sequence]
    by_cases zero : c = '0'
    · subst zero
      have notLower : mark ≠ 'x' := fun lower => unmarked mark (.inl lower) rest rfl
      have notUpper : mark ≠ 'X' := fun upper => unmarked mark (.inr upper) rest rfl
      simp [run_exactly_cons, run_exactly_cons_of_ne notLower, run_exactly_cons_of_ne notUpper]
    · simp [run_exactly_cons_of_ne zero]

/-- After a mark, hexadecimal digits up to the end of the word are needed. -/
theorem run_numeral_marked
    {mark : Char}
    (marked : mark = 'x' ∨ mark = 'X')
    (position : Nat)
    (text : Text) :
    (sequence numeral (absence (character Text.isNameRest))).run ⟨position, '0' :: mark :: text⟩ =
      (sequence (atLeastOnce (character Text.isHexDigit))
        (absence (character Text.isNameRest))).run ⟨position + 2, text⟩ := by
  have mark_rest : Text.isNameRest mark = true := by
    rcases marked with rfl | rfl <;> decide
  have notDigit : mark.isDigit = false := by
    rcases marked with rfl | rfl <;> decide
  rw [run_sequence, run_sequence, numeral, run_choice, run_sequence, run_hexMark marked,
    Attempt.andThen_fit, run_atLeastOnce_character, run_atLeastOnce_character]
  cases Token.someRun? Text.isHexDigit text with
  | some cut =>
      rfl
  | none =>
      -- The zero of the mark is a decimal numeral, but the mark goes on after it.
      simp [Attempt.ofCut, Attempt.orElse_none, Attempt.andThen_none, Token.someRun?, Token.run,
        notDigit, run, mark_rest, Attempt.noting, Attempt.andThen_some, Attempt.fit,
        Attempt.misfit]

/-- A numeral where no name goes on is the whole run of characters of a name. -/
theorem run_numeral
    (position : Nat)
    (text : Text) :
    (sequence numeral (absence (character Text.isNameRest))).run ⟨position, text⟩ =
      .ofCut position
        (if Token.isNumeral (Token.run Text.isNameRest text).token then
          some (Token.run Text.isNameRest text)
        else
          none) := by
  by_cases marked : ∃ mark rest, (mark = 'x' ∨ mark = 'X') ∧ text = '0' :: mark :: rest
  · obtain ⟨mark, rest, marked, rfl⟩ := marked
    have whole :
        Token.run Text.isNameRest ('0' :: mark :: rest) =
          ⟨'0' :: mark :: (Token.run Text.isNameRest rest).token,
            (Token.run Text.isNameRest rest).rest⟩ := by
      rcases marked with rfl | rfl <;> rfl
    have body := Token.hexBody?_eq_some_iff.mpr
      ⟨mark, marked, (rfl : '0' :: mark :: (Token.run Text.isNameRest rest).token = _)⟩
    have inName (c : Char) : Text.isHexDigit c = true → Text.isNameRest c = true :=
      Token.isNameRest_of_isHexDigit
    rw [run_numeral_marked marked, run_wholeRun inName, whole, Token.isNumeral, body]
    change
      Attempt.ofCut (position + 2)
          (if Numeral.isHexadecimal (Token.run Text.isNameRest rest).token then _ else _) =
        _
    split
    · simp [Attempt.ofCut, Nat.add_assoc, Nat.add_comm 2]
    · rfl
  · have unmarked : ∀ mark, (mark = 'x' ∨ mark = 'X') → ∀ rest, text ≠ '0' :: mark :: rest :=
      fun mark isMark rest shape => marked ⟨mark, rest, isMark, shape⟩
    have noBody : Numeral.hexBody? (Token.run Text.isNameRest text).token = none := by
      rw [Option.eq_none_iff_forall_not_mem]
      intro digits body
      obtain ⟨mark, isMark, shape⟩ := Token.hexBody?_eq_some_iff.mp body
      have splits := Token.run_splits Text.isNameRest text
      rw [Token.Cut.Splits, shape] at splits
      exact unmarked mark isMark _ splits.symm
    have decimal :
        numeral.run ⟨position, text⟩ =
          (atLeastOnce (character Char.isDigit)).run ⟨position, text⟩ := by
      rw [numeral, run_choice, run_sequence, run_hexMark_of_unmarked unmarked]
      simp
    rw [run_sequence, decimal, ← run_sequence, run_wholeRun, Token.isNumeral, noBody]
    · rfl
    · intro c digit
      simp [Text.isNameRest, Char.isAlphanum, digit]

/-- An immediate fits exactly where the reader cuts one off. -/
theorem run_immediate
    (position : Nat)
    (text : Text) :
    immediate.run ⟨position, text⟩ = .ofToken .immediate position (Token.immediate? text) := by
  apply run_rule_ofCut
  rw [run_sequence, run_sign, Attempt.andThen_fit, run_numeral, Token.immediate?]
  split
  · simp [Attempt.ofCut, Nat.add_assoc]
  · rfl

end Rules

end Peg

end TinyMips
