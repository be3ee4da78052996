import TinyMips.Proofs.Grammar.Line
import TinyMips.Proofs.Peg.Statement

namespace TinyMips.Peg.Rules

/-!
# Lines by their rules

The rule for a line takes a line whole exactly if the line can be read. Of a line that
cannot be read, the furthest place where a rule is tried in vain is the one reported.
-/

open Expression Furthest

/-! ## What is skipped -/

/-- Nothing is skipped where neither a blank nor a comment stands. -/
def Settled (text : Text) : Prop :=
  Token.Stops Text.isBlank text ∧ ∀ rest, text ≠ '#' :: rest

/-- No comment begins where everything has been skipped. -/
theorem run_comment_of_settled
    {text : Text}
    (settled : Settled text)
    (position : Nat) :
    (sequence comment (repetition blank)).run ⟨position, text⟩ = .misfit := by
  rw [run_sequence, comment, run_sequence, run_exactly_of_ne settled.2]
  rfl

/-- Blanks are skipped where no comment follows them. -/
theorem run_skip_blanks
    {text blanks rest : Text}
    (blanksFound : Token.run Text.isBlank text = ⟨blanks, rest⟩)
    (settled : Settled rest)
    (position : Nat) :
    skip.run ⟨position, text⟩ = .fit ⟨position + blanks.length, rest⟩ := by
  rw [skip, run_sequence, blank, run_repetition_character, blanksFound, Attempt.andThen_fit]
  exact repeated_of_none (run_comment_of_settled settled _)

/-- Skipping again takes nothing. -/
theorem run_skip_of_settled
    {text : Text}
    (settled : Settled text)
    (position : Nat) :
    skip.run ⟨position, text⟩ = .fit ⟨position, text⟩ := by
  exact run_skip_blanks (Token.run_of_stops settled.1) settled position

/-- Nothing is skipped before the end of a line. -/
theorem settled_of_stops
    {text : Text}
    (stops : Token.Stops (fun c => c ≠ '\n' && c ≠ '\r') text) :
    Settled text := by
  cases text with
  | nil =>
      exact ⟨Token.stops_nil Text.isBlank, by simp⟩
  | cons c text =>
      have ends : c = '\n' ∨ c = '\r' := by
        have outside := Token.stops_cons_iff.mp stops
        simpa [← or_iff_not_imp_left] using outside
      constructor
      · rcases ends with rfl | rfl
        · exact Token.stops_cons_iff.mpr (by decide)
        · exact Token.stops_cons_iff.mpr (by decide)
      · rcases ends with rfl | rfl <;> simp

/-- A comment is skipped up to the end of the line. -/
theorem run_skip_comment
    {text blanks word rest : Text}
    (blanksFound : Token.run Text.isBlank text = ⟨blanks, '#' :: (word ++ rest)⟩)
    (inLine : Grammar.Only (fun c => c ≠ '\n' && c ≠ '\r') word)
    (stops : Token.Stops (fun c => c ≠ '\n' && c ≠ '\r') rest)
    (position : Nat) :
    skip.run ⟨position, text⟩ = .fit ⟨position + blanks.length + 1 + word.length, rest⟩ := by
  have settled := settled_of_stops stops
  have first :
      (sequence comment (repetition blank)).run
          ⟨position + blanks.length, '#' :: (word ++ rest)⟩ =
        .fit ⟨position + blanks.length + 1 + word.length, rest⟩ := by
    rw [run_sequence, comment, run_sequence, run_exactly_cons, Attempt.andThen_fit,
      run_repetition_character, Token.run_append inLine stops, Attempt.andThen_fit, blank,
      run_repetition_character, Token.run_of_stops settled.1]
    rfl
  have goesOn := repeated_of_some first (length_lt_of_run (by decide) first)
  rw [skip, run_sequence, blank, run_repetition_character, blanksFound, Attempt.andThen_fit]
  refine goesOn.trans ?_
  rw [Attempt.noting_bot]
  exact repeated_of_none (run_comment_of_settled settled _)

/-- After the blanks of a line and without a comment behind them, nothing is left to skip. -/
theorem settled_of_uncommented
    {text blanks rest : Text}
    (blanksFound : Token.run Text.isBlank text = ⟨blanks, rest⟩)
    (uncommented : ∀ comment, rest ≠ '#' :: comment) :
    Settled rest := by
  have stops := Token.stops_run Text.isBlank text
  rw [blanksFound] at stops
  exact ⟨stops, uncommented⟩

/-- Something can be skipped anywhere, and then nothing more. -/
theorem run_skip (cursor : Cursor) :
    ∃ next, skip.run cursor = .fit next ∧ skip.run next = .fit next := by
  obtain ⟨position, text⟩ := cursor
  cases blanksFound : Token.run Text.isBlank text with
  | mk blanks rest =>
      by_cases commented : ∃ comment, rest = '#' :: comment
      · obtain ⟨comment, rfl⟩ := commented
        obtain ⟨word, after, rfl, inLine, stops⟩ :=
          exists_run_append (fun c => c ≠ '\n' && c ≠ '\r') comment
        exact ⟨_, run_skip_comment blanksFound inLine stops position,
          run_skip_of_settled (settled_of_stops stops) _⟩
      · have settled :=
          settled_of_uncommented blanksFound fun comment shape => commented ⟨comment, shape⟩
        exact ⟨_, run_skip_blanks blanksFound settled position, run_skip_of_settled settled _⟩

/-- What is left of a line where blanks and a comment are skipped. -/
theorem run_skip_line
    {text : Text}
    (oneLine : text.IsOneLine)
    (position : Nat) :
    ∃ next,
      skip.run ⟨position, text⟩ = .fit next ∧
        next.rest = Token.skip text ∧
          (Token.skip text ≠ [] →
            next.position = position + (Token.run Text.isBlank text).token.length) := by
  cases blanksFound : Token.run Text.isBlank text with
  | mk blanks rest =>
      have left : text.dropWhile Text.isBlank = rest := congrArg Token.Cut.rest blanksFound
      by_cases commented : ∃ comment, rest = '#' :: comment
      · obtain ⟨comment, rfl⟩ := commented
        have nothing : Token.skip text = [] := by
          rw [Token.skip, left]
          rfl
        have splits : blanks ++ '#' :: comment = text := by
          simpa [Token.Cut.Splits, blanksFound] using Token.run_splits Text.isBlank text
        have inLine : Grammar.Only (fun c => c ≠ '\n' && c ≠ '\r') comment := by
          intro c member
          have inText : c ∈ text := by
            rw [← splits]
            simp [member]
          simpa using oneLine c inText
        rw [← List.append_nil comment] at blanksFound
        exact ⟨_, run_skip_comment blanksFound inLine (Token.stops_nil _) position, nothing.symm,
          fun something => absurd nothing something⟩
      · have uncommented : ∀ comment, rest ≠ '#' :: comment :=
          fun comment shape => commented ⟨comment, shape⟩
        have settled := settled_of_uncommented blanksFound uncommented
        have skipped : Token.skip text = rest := by
          rw [Token.skip, left]
          split
          · rename_i comment
            exact absurd rfl (uncommented comment)
          · rfl
        exact ⟨_, run_skip_blanks blanksFound settled position, skipped.symm, fun _ => rfl⟩

/-! ## Labels -/

theorem place_ofMissingLabel
    (position : Nat)
    (text : Text) :
    (ofMissingLabel position text).place = .some position := by
  rw [ofMissingLabel,
    place_within (from_ofToken .identifier (Nat.le_refl position) (Token.identifier? text))]
  cases Token.identifier? text with
  | none => exact max_self _
  | some cut => exact bot_sup_eq _

/-- A label fits where the reader finds one, and takes its colon as well. -/
theorem run_label_of_some
    {text : Text}
    {cut : Token.Cut}
    (found : Token.label? text = some cut)
    (position : Nat) :
    label.run ⟨position, text⟩ = .fit ⟨position + cut.token.length + 1, cut.rest⟩ := by
  unfold Token.label? at found
  split at found
  · rename_i name rest identifierFound
    obtain rfl := Option.some.inj found
    rw [label, run_rule, run_sequence, run_identifier, identifierFound, Attempt.ofToken,
      Option.map_some, Attempt.andThen_some, run_exactly_cons, place_ofToken_some]
    rfl
  · simp at found

/-- Where the reader finds no label, the attempt at one fails at its start. -/
theorem run_label_of_none
    {text : Text}
    (missing : Token.label? text = none)
    (position : Nat) :
    label.run ⟨position, text⟩ = .failed position := by
  rw [label, run_rule, run_sequence, run_identifier]
  unfold Token.label? at missing
  split at missing
  · simp at missing
  · rename_i noColon
    cases identifierFound : Token.identifier? text with
    | none =>
        simp [Attempt.ofToken, Attempt.andThen_none, Attempt.orElse_none, Attempt.noting,
          Attempt.failed, place_ofToken_none]
    | some cut =>
        have differs : ∀ rest, cut.rest ≠ ':' :: rest := by
          intro rest shape
          exact noColon cut.token rest (by rw [identifierFound, ← shape])
        rw [Attempt.ofToken, Option.map_some, Attempt.andThen_some, run_exactly_of_ne differs,
          place_ofToken_some]
        simp

/-! ## Bodies -/

theorem settled_of_skip
    {text : Text}
    (skipped : Token.skip text = text) :
    Settled text := by
  cases text with
  | nil =>
      exact ⟨Token.stops_nil Text.isBlank, by simp⟩
  | cons c text =>
      obtain ⟨notBlank, notSign⟩ := Token.skip_head skipped
      exact ⟨Token.stops_cons_iff.mpr notBlank, fun rest shape => notSign (List.cons.inj shape).1⟩

/-- A directive and the comment after it take the rest of the line. -/
theorem run_directive
    {text : Text}
    (oneLine : Text.IsOneLine ('.' :: text))
    (position : Nat) :
    ∃ ended,
      (sequence body skip).run ⟨position, '.' :: text⟩ = .fit ended ∧ ended.rest = [] := by
  obtain ⟨word, rest, rfl, inside, stops⟩ :=
    exists_run_append (fun c => c ≠ '\n' && c ≠ '\r' && c ≠ '#') text
  have restOneLine : rest.IsOneLine :=
    (Text.isOneLine_append_iff.mp (Text.isOneLine_cons_iff.mp oneLine).2).2
  have nothing : Token.skip rest = [] := by
    cases rest with
    | nil =>
        rfl
    | cons c rest =>
        have noBreak := (Text.isOneLine_cons_iff.mp restOneLine).1
        have outside := Token.stops_cons_iff.mp stops
        obtain rfl : c = '#' := by simpa [noBreak] using outside
        rfl
  obtain ⟨ended, skipped, left, _⟩ := run_skip_line restOneLine (position + 1 + word.length)
  refine ⟨ended, ?_, left.trans nothing⟩
  rw [run_sequence, body, run_optional, run_choice, directive, run_rule, run_sequence,
    run_exactly_cons, Attempt.andThen_fit, run_repetition_character,
    Token.run_append inside stops]
  simpa using skipped

/-- What can be read after the labels, where it is no directive. -/
theorem ofBody?_of_undotted
    {text : Text}
    (something : text ≠ [])
    (undotted : ∀ rest, text ≠ '.' :: rest)
    (labels : List Text) :
    Content.ofBody? labels text =
      (Statement.read? text).bind fun (statement, rest) =>
        if (Token.skip rest).isEmpty then some ⟨labels, some statement⟩ else none := by
  rw [Content.ofBody?]
  · cases Statement.read? text <;> rfl
  · exact something
  · exact undotted

/-- What stands after the labels is taken up to the end of the line exactly if it can be read. -/
theorem run_body
    {text : Text}
    (oneLine : text.IsOneLine)
    (skipped : Token.skip text = text)
    (labels : List Text)
    (position : Nat) :
    ∃ ended furthest,
      (sequence body skip).run ⟨position, text⟩ = ⟨some ended, furthest⟩ ∧
        ((Content.ofBody? labels text).isSome ↔ ended.rest = []) ∧
          (Content.ofBody? labels text = none →
            .some position ⊔ (furthest ⊔ .some ended.position) = (ofBody position text).place) := by
  by_cases dotted : ∃ rest, text = '.' :: rest
  · obtain ⟨rest, rfl⟩ := dotted
    obtain ⟨ended, ran, nothing⟩ := run_directive oneLine position
    exact ⟨ended, ⊥, ran, by simp [nothing, Content.ofBody?], by simp [Content.ofBody?]⟩
  · have undotted : ∀ rest, text ≠ '.' :: rest := fun rest shape => dotted ⟨rest, shape⟩
    have noDirective : directive.run ⟨position, text⟩ = .failed position := by
      rw [directive, run_rule, run_sequence, run_exactly_of_ne undotted]
      simp
    rw [run_sequence, body, run_optional, run_choice, noDirective, run_instruction, ofBody,
      place_merge, place_merge, place_merge, place_ofMissingLabel, place_single, place_single]
    cases read : Statement.read? text with
    | none =>
        have ran := run_skip_of_settled (settled_of_skip skipped) position
        refine ⟨⟨position, text⟩, .some position ⊔ (ofStatement position text).place, ?_, ?_, ?_⟩
        · simp [Attempt.failed, Attempt.orElse_none, Attempt.noting, Attempt.fit,
            Attempt.andThen_some, ran]
        · cases text with
          | nil => simp [Content.ofBody?]
          | cons c text => simp [ofBody?_of_undotted (by simp) undotted, read]
        · intro _
          simp
    | some found =>
        obtain ⟨statement, rest⟩ := found
        have splits := (Statement.instruction_of_read? read).2
        have restOneLine : rest.IsOneLine := by
          rw [← splits] at oneLine
          exact (Text.isOneLine_append_iff.mp oneLine).2
        have something : text ≠ [] := by
          rintro rfl
          simp [Statement.read?, Token.mnemonic?, Token.someRun?, Token.run] at read
        obtain ⟨ended, ran, left, place⟩ :=
          run_skip_line restOneLine (position + statement.text.length)
        refine ⟨ended, .some position ⊔ (ofStatement position text).place, ?_, ?_, ?_⟩
        · simp [Attempt.failed, Attempt.orElse_none, Attempt.orElse_some, Attempt.noting,
            Attempt.fit, Attempt.andThen_some, ran]
        · simp [ofBody?_of_undotted something undotted, read, left]
        · intro rejected
          have remains : Token.skip rest ≠ [] := by
            simpa [ofBody?_of_undotted something undotted, read] using rejected
          rw [place remains]
          simp [max_assoc]

/-! ## Whole lines -/

/-- Without a label, the furthest place is that of the body. -/
theorem ofLabelled_of_none
    {text : Text}
    (missing : Token.label? text = none)
    (position : Nat) :
    ofLabelled position text = ofBody position text := by
  rw [ofLabelled]
  split
  · rfl
  · rename_i found
    simp [missing] at found

/-- Behind a label, the furthest place is looked for after it and the blanks that follow. -/
theorem ofLabelled_of_some
    {text : Text}
    {cut : Token.Cut}
    (found : Token.label? text = some cut)
    (position : Nat) :
    ofLabelled position text =
      ofLabelled
        (position + cut.token.length + 1 + (Token.run Text.isBlank cut.rest).token.length)
        (Token.skip cut.rest) := by
  rw [ofLabelled]
  split
  · rename_i missing
    simp [found] at missing
  · rename_i other otherFound
    obtain rfl := Option.some.inj (found.symm.trans otherFound)
    rfl

theorem isOneLine_skip
    {text : Text}
    (oneLine : text.IsOneLine) :
    (Token.skip text).IsOneLine := by
  rcases Token.skip_cases text with ⟨blanks, _, shape⟩ | ⟨nothing, _⟩
  · rw [shape] at oneLine
    exact (Text.isOneLine_append_iff.mp oneLine).2
  · rw [nothing]
    exact Text.isOneLine_nil

/-- What a line holds from its labels on, with something to skip before each of its parts. -/
def labelled : Expression :=
  sequence (repetition (sequence skip label)) (sequence skip (sequence body skip))

/-- Without a label, a labelled line is its body, with the place of the label noted. -/
theorem run_labelled_of_none
    {text : Text}
    {next : Cursor}
    {position : Nat}
    (skipped : skip.run ⟨position, text⟩ = .fit next)
    (missing : Token.label? next.rest = none) :
    labelled.run ⟨position, text⟩ =
      ((sequence body skip).run next).noting (.some next.position) := by
  have failed : (sequence skip label).run ⟨position, text⟩ = .failed next.position := by
    rw [run_sequence, skipped, Attempt.andThen_fit]
    exact run_label_of_none missing next.position
  have stopped :
      (repetition (sequence skip label)).run ⟨position, text⟩ =
        ⟨some ⟨position, text⟩, .some next.position⟩ :=
    repeated_of_none failed
  rw [labelled, run_sequence, stopped, Attempt.andThen_some, run_sequence, skipped,
    Attempt.andThen_fit]

/-- Behind a label, a labelled line is tried again from its start. -/
theorem run_labelled_of_some
    {text : Text}
    {next : Cursor}
    {cut : Token.Cut}
    {position : Nat}
    (skipped : skip.run ⟨position, text⟩ = .fit next)
    (found : Token.label? next.rest = some cut) :
    labelled.run ⟨position, text⟩ =
      labelled.run ⟨next.position + cut.token.length + 1, cut.rest⟩ := by
  have fits :
      (sequence skip label).run ⟨position, text⟩ =
        .fit ⟨next.position + cut.token.length + 1, cut.rest⟩ := by
    rw [run_sequence, skipped, Attempt.andThen_fit]
    exact run_label_of_some found next.position
  have goesOn :
      (repetition (sequence skip label)).run ⟨position, text⟩ =
        ((repetition (sequence skip label)).run
          ⟨next.position + cut.token.length + 1, cut.rest⟩).noting ⊥ :=
    repeated_of_some fits (length_lt_of_run (by decide) fits)
  rw [labelled, run_sequence, run_sequence, goesOn, Attempt.noting_bot]

/-- From its labels on, a line is taken whole exactly if it can be read. -/
theorem run_labelled
    {text : Text}
    (oneLine : text.IsOneLine)
    (earlier : List Text)
    (position : Nat) :
    ∃ ended furthest,
      labelled.run ⟨position, text⟩ = ⟨some ended, furthest⟩ ∧
        ((Content.ofBody? (Content.readLabels earlier (Token.skip text)).1
              (Content.readLabels earlier (Token.skip text)).2).isSome ↔
            ended.rest = []) ∧
          (Content.ofBody? (Content.readLabels earlier (Token.skip text)).1
                (Content.readLabels earlier (Token.skip text)).2 =
              none →
            furthest ⊔ .some ended.position =
              (ofLabelled (position + (Token.run Text.isBlank text).token.length)
                (Token.skip text)).place) := by
  obtain ⟨⟨reached, left⟩, skipped, rfl, place⟩ := run_skip_line oneLine position
  generalize start : Token.skip text = left at skipped place
  fun_induction Content.readLabels earlier left generalizing text position reached with
  | case1 earlier left noLabel =>
      subst start
      obtain ⟨ended, furthest, ran, whole, failure⟩ :=
        run_body (isOneLine_skip oneLine) (Token.skip_skip text) earlier.reverse reached
      refine ⟨ended, .some reached ⊔ furthest, ?_, whole, fun rejected => ?_⟩
      · rw [run_labelled_of_none skipped noLabel, ran]
        rfl
      · have something : Token.skip text ≠ [] := by
          intro nothing
          simp [nothing, Content.ofBody?] at rejected
        rw [ofLabelled_of_none noLabel, ← place something, sup_assoc]
        exact failure rejected
  | case2 earlier left cut found inductionHypothesis =>
      subst start
      have restOneLine : cut.rest.IsOneLine := by
        have leftOneLine := isOneLine_skip oneLine
        rw [← (Token.identifier_of_label? found).2] at leftOneLine
        exact (Text.isOneLine_cons_iff.mp (Text.isOneLine_append_iff.mp leftOneLine).2).2
      have something : Token.skip text ≠ [] := by
        intro nothing
        simp [nothing, Token.label?, Token.identifier?] at found
      obtain ⟨⟨nextReached, nextLeft⟩, nextSkipped, rfl, nextPlace⟩ :=
        run_skip_line restOneLine (reached + cut.token.length + 1)
      obtain ⟨ended, furthest, ran, whole, failure⟩ :=
        inductionHypothesis restOneLine _ _ rfl nextSkipped nextPlace
      refine ⟨ended, furthest, (run_labelled_of_some skipped found).trans ran, whole,
        fun rejected => ?_⟩
      rw [failure rejected, ofLabelled_of_some found, ← place something]

theorem exists_run_optional
    (expression : Expression)
    (cursor : Cursor) :
    ∃ next furthest, (optional expression).run cursor = ⟨some next, furthest⟩ := by
  rw [run_optional]
  obtain ⟨next?, furthest⟩ := expression.run cursor
  cases next? with
  | none => exact ⟨cursor, _, rfl⟩
  | some next => exact ⟨next, furthest, rfl⟩

/-- A line never fails, since nothing has to be on it. -/
theorem exists_run_line (cursor : Cursor) :
    ∃ next furthest,
      (sequence (spaced skip label) (sequence skip body)).run cursor = ⟨some next, furthest⟩ ∧
        line.run cursor = ⟨some next, furthest⟩ := by
  obtain ⟨labelled, first, labelsRan⟩ :=
    exists_run_optional (sequence label (repetition (sequence skip label))) cursor
  obtain ⟨skipped, skipRan, _⟩ := run_skip labelled
  obtain ⟨next, second, bodyRan⟩ := exists_run_optional (choice directive instruction) skipped
  have ran :
      (sequence (spaced skip label) (sequence skip body)).run cursor =
        ⟨some next, first ⊔ second⟩ := by
    rw [run_sequence, spaced, labelsRan, Attempt.andThen_some, run_sequence, skipRan,
      Attempt.andThen_fit, body, bodyRan]
    rfl
  refine ⟨next, _, ran, ?_⟩
  rw [line, run_rule, ran, Attempt.orElse_some]

/-- A line with what may be skipped before and after it. -/
def wholeLine : Expression :=
  sequence skip (sequence line skip)

theorem run_wholeLine (cursor : Cursor) :
    wholeLine.run cursor = labelled.run cursor := by
  have unwrapped (cursor : Cursor) :
      (sequence line skip).run cursor =
        (sequence (spaced skip label) (sequence skip (sequence body skip))).run cursor := by
    obtain ⟨next, furthest, ran, lineRan⟩ := exists_run_line cursor
    calc (sequence line skip).run cursor
        = (sequence (sequence (spaced skip label) (sequence skip body)) skip).run cursor := by
          rw [run_sequence, run_sequence, lineRan, ran]
      _ = (sequence (spaced skip label) (sequence (sequence skip body) skip)).run cursor :=
          run_sequence_assoc (spaced skip label) (sequence skip body) skip cursor
      _ = (sequence (spaced skip label) (sequence skip (sequence body skip))).run cursor := by
          rw [run_sequence, run_sequence, funext (run_sequence_assoc skip body skip)]
  rw [wholeLine, run_sequence, funext unwrapped, ← run_sequence, run_spaced run_skip (by decide)]
  rfl

/-- A place that is at least some position is a position itself. -/
theorem position_of_place
    {failure : Furthest}
    {position : Nat}
    {earlier : WithBot Nat}
    (place : earlier ⊔ .some position = failure.place) :
    failure.place = .some failure.position := by
  unfold Furthest.place at place ⊢
  split at place
  · simp at place
  · rename_i present
    rw [if_neg present]

/-- A line is taken whole exactly if it can be read, and else reported where its reader says. -/
theorem run_line
    {text : Text}
    (oneLine : text.IsOneLine) :
    ∃ ended furthest,
      wholeLine.run ⟨0, text⟩ = ⟨some ended, furthest⟩ ∧
        ((Content.ofLine? text).isSome ↔ ended.rest = []) ∧
          (Content.ofLine? text = none →
            furthest ⊔ .some ended.position = .some (Furthest.ofLine text).position) := by
  obtain ⟨ended, furthest, ran, whole, failure⟩ := run_labelled oneLine [] 0
  refine ⟨ended, furthest, (run_wholeLine ⟨0, text⟩).trans ran, whole, fun rejected => ?_⟩
  have place := failure rejected
  rw [Nat.zero_add] at place
  rw [place]
  exact position_of_place place

end TinyMips.Peg.Rules
