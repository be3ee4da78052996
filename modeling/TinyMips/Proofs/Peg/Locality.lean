import TinyMips.Proofs.Peg.Expression
import TinyMips.Proofs.Text.Line

namespace TinyMips.Peg

/-!
# Expressions in a longer text

An expression that takes no line break does not see what comes before or after the line
it is tried on: its attempt on the line alone is its attempt in any text with that line.
Any expression takes a word from the front of the text, if it fits, and tries no rule
behind the end.
-/

/-- A text is empty or begins with a line break. -/
def Breaks (after : Text) : Prop :=
  ∀ c ∈ after.head?, c = '\n' ∨ c = '\r'

/-- A place on a line as a place in a text, with so many characters before the line. -/
def Cursor.embed
    (before : Nat)
    (after : Text)
    (cursor : Cursor) :
    Cursor :=
  ⟨before + cursor.position, cursor.rest ++ after⟩

namespace Attempt

/-- An attempt on a line as an attempt in a text. -/
def embed
    (before : Nat)
    (after : Text)
    (attempt : Attempt) :
    Attempt :=
  ⟨attempt.next?.map (Cursor.embed before after), WithBot.some before + attempt.furthest⟩

variable {before : Nat} {after : Text}

@[simp]
theorem embed_fit (next : Cursor) :
    (fit next).embed before after = fit (next.embed before after) := by
  simp [embed, fit]

@[simp]
theorem embed_misfit :
    misfit.embed before after = misfit := by
  simp [embed, misfit]

theorem embed_failed (position : Nat) :
    (failed position).embed before after = failed (before + position) := by
  simp [embed, failed]

theorem embed_noting
    (attempt : Attempt)
    (earlier : WithBot Nat) :
    (attempt.noting earlier).embed before after =
      (attempt.embed before after).noting (WithBot.some before + earlier) := by
  simp only [noting, embed, Attempt.mk.injEq, true_and]
  exact (max_add_add_left _ _ _).symm

/-- Attempts in a row may be embedded one by one. -/
theorem embed_andThen
    (attempt : Attempt)
    {later embedded : Cursor → Attempt}
    (alike :
      ∀ next, embedded (next.embed before after) = (later next).embed before after) :
    (attempt.embed before after).andThen embedded =
      (attempt.andThen later).embed before after := by
  obtain ⟨next?, furthest⟩ := attempt
  cases next? with
  | none => rfl
  | some next =>
      rw [andThen_some, embed_noting, ← alike]
      rfl

theorem embed_orElse (attempt other : Attempt) :
    (attempt.embed before after).orElse (other.embed before after) =
      (attempt.orElse other).embed before after := by
  obtain ⟨next?, furthest⟩ := attempt
  cases next? with
  | none => exact (embed_noting other furthest).symm
  | some next => rfl

end Attempt

/-- Repeated attempts that are alike one by one are alike as a whole. -/
theorem repeated_embed
    {before : Nat}
    {after : Text}
    {attempt : Cursor → Attempt}
    (alike :
      ∀ cursor, attempt (cursor.embed before after) = (attempt cursor).embed before after)
    (cursor : Cursor) :
    repeated attempt (cursor.embed before after) =
      (repeated attempt cursor).embed before after := by
  fun_induction repeated attempt cursor with
  | case1 cursor none =>
      have embedded := alike cursor
      rw [Attempt.embed, none] at embedded
      exact repeated_of_none embedded
  | case2 cursor next found progress inductionHypothesis =>
      have embedded := alike cursor
      rw [Attempt.embed, found] at embedded
      rw [Attempt.embed_noting, ← inductionHypothesis]
      exact repeated_of_some embedded (by simpa [Cursor.embed] using progress)
  | case3 cursor next found stuck =>
      rw [repeated, alike]
      simp [Attempt.embed, Cursor.embed, found, stuck]

namespace Expression

/-- An expression takes no line break and does not look for the end of the text. -/
def withinLine : Expression → Bool
  | empty => true
  | character inClass => !inClass '\n' && !inClass '\r'
  | endOfText => false
  | sequence first second => first.withinLine && second.withinLine
  | choice first second => first.withinLine && second.withinLine
  | repetition body => body.withinLine
  | absence body => body.withinLine
  | rule _ body => body.withinLine

/-- What comes before and after a line does not matter to an expression within the line. -/
theorem run_embed
    {expression : Expression}
    (withinLine : expression.withinLine = true)
    (before : Nat)
    {after : Text}
    (breaks : Breaks after)
    (cursor : Cursor) :
    expression.run (cursor.embed before after) =
      (expression.run cursor).embed before after := by
  induction expression generalizing cursor with
  | empty =>
      simp [run]
  | character inClass =>
      obtain ⟨noFeed, noReturn⟩ : inClass '\n' = false ∧ inClass '\r' = false := by
        simpa [Expression.withinLine] using withinLine
      obtain ⟨position, rest⟩ := cursor
      cases rest with
      | cons c rest =>
          simp only [run, Cursor.embed, List.cons_append]
          split <;> simp [Cursor.embed, Nat.add_assoc]
      | nil =>
          cases after with
          | nil => simp [run, Cursor.embed]
          | cons c after =>
              have outside : inClass c = false := by
                rcases breaks c rfl with rfl | rfl
                · exact noFeed
                · exact noReturn
              simp [run, Cursor.embed, outside]
  | endOfText =>
      simp [Expression.withinLine] at withinLine
  | sequence first second firstHypothesis secondHypothesis =>
      obtain ⟨inFirst, inSecond⟩ := Bool.and_eq_true_iff.mp withinLine
      rw [run_sequence, run_sequence, firstHypothesis inFirst]
      exact Attempt.embed_andThen (first.run cursor) (secondHypothesis inSecond)
  | choice first second firstHypothesis secondHypothesis =>
      obtain ⟨inFirst, inSecond⟩ := Bool.and_eq_true_iff.mp withinLine
      rw [run_choice, run_choice, firstHypothesis inFirst, secondHypothesis inSecond]
      exact Attempt.embed_orElse (first.run cursor) (second.run cursor)
  | repetition body inductionHypothesis =>
      exact repeated_embed (inductionHypothesis withinLine) cursor
  | absence body inductionHypothesis =>
      simp only [run, inductionHypothesis withinLine, Attempt.embed, Option.isNone_map]
      split <;> simp [Attempt.fit, Attempt.misfit]
  | rule name body inductionHypothesis =>
      rw [run_rule, run_rule, inductionHypothesis withinLine, ← Attempt.embed_orElse,
        Attempt.embed_failed]
      rfl

end Expression

/-! ## How far an attempt goes -/

/-- A place lies behind another one, with a word of at least so many characters between. -/
def Cursor.Behind
    (next cursor : Cursor)
    (taken : Nat) :
    Prop :=
  ∃ word : Text,
    cursor.rest = word ++ next.rest ∧
      next.position = cursor.position + word.length ∧ taken ≤ word.length

theorem Cursor.behind_refl (cursor : Cursor) :
    cursor.Behind cursor 0 :=
  ⟨[], by simp⟩

/-- A lower bound on the characters between two places may be lowered. -/
theorem Cursor.Behind.mono
    {cursor next : Cursor}
    {taken fewer : Nat}
    (behind : next.Behind cursor taken)
    (le : fewer ≤ taken) :
    next.Behind cursor fewer := by
  obtain ⟨word, splits, position, most⟩ := behind
  exact ⟨word, splits, position, le.trans most⟩

theorem Cursor.Behind.trans
    {cursor middle next : Cursor}
    {taken more : Nat}
    (first : middle.Behind cursor taken)
    (second : next.Behind middle more) :
    next.Behind cursor (taken + more) := by
  obtain ⟨word, splits, position, most⟩ := first
  obtain ⟨later, laterSplits, laterPosition, laterMost⟩ := second
  refine ⟨word ++ later, by simp [splits, laterSplits], ?_, ?_⟩
  · rw [laterPosition, position, List.length_append, Nat.add_assoc]
  · rw [List.length_append]
    exact Nat.add_le_add most laterMost

/-- The text ends where it ended. -/
theorem Cursor.Behind.limit
    {cursor next : Cursor}
    {taken : Nat}
    (behind : next.Behind cursor taken) :
    next.limit = cursor.limit := by
  obtain ⟨word, splits, position, _⟩ := behind
  simp [Cursor.limit, splits, position, Nat.add_assoc]

/--
An attempt takes a word of at least so many characters where it fits, and tries no rule
behind the end of the text.
-/
def Attempt.Takes
    (attempt : Attempt)
    (cursor : Cursor)
    (taken : Nat) :
    Prop :=
  (∀ next ∈ attempt.next?, next.Behind cursor taken) ∧ attempt.furthest ≤ .some cursor.limit

namespace Attempt

variable {cursor : Cursor} {taken : Nat}

theorem takes_fit
    {next : Cursor}
    (behind : next.Behind cursor taken) :
    (fit next).Takes cursor taken := by
  simpa [Takes, fit] using behind

theorem takes_misfit
    (cursor : Cursor)
    (taken : Nat) :
    misfit.Takes cursor taken := by
  simp [Takes, misfit]

theorem takes_failed
    (cursor : Cursor)
    (taken : Nat) :
    (failed cursor.position).Takes cursor taken :=
  ⟨by simp [failed], WithBot.coe_le_coe.mpr (Nat.le_add_right _ _)⟩

theorem Takes.mono
    {attempt : Attempt}
    {fewer : Nat}
    (takes : attempt.Takes cursor taken)
    (le : fewer ≤ taken) :
    attempt.Takes cursor fewer :=
  ⟨fun next found => (takes.1 next found).mono le, takes.2⟩

/-- A place within the text may be noted without harm. -/
theorem Takes.noting
    {attempt : Attempt}
    {earlier : WithBot Nat}
    (takes : attempt.Takes cursor taken)
    (bounded : earlier ≤ .some cursor.limit) :
    (attempt.noting earlier).Takes cursor taken :=
  ⟨takes.1, sup_le bounded takes.2⟩

/-- Two attempts in a row take the characters of both. -/
theorem Takes.andThen
    {attempt : Attempt}
    {later : Cursor → Attempt}
    {more : Nat}
    (takes : attempt.Takes cursor taken)
    (laterTakes : ∀ next, (later next).Takes next more) :
    (attempt.andThen later).Takes cursor (taken + more) := by
  obtain ⟨next?, furthest⟩ := attempt
  cases next? with
  | none =>
      exact ⟨by simp [andThen_none], takes.2⟩
  | some middle =>
      have behind := takes.1 middle rfl
      obtain ⟨nexts, bounded⟩ := laterTakes middle
      rw [behind.limit] at bounded
      exact ⟨fun next found => behind.trans (nexts next found), sup_le takes.2 bounded⟩

/-- An attempt with an alternative takes what the lesser of the two takes. -/
theorem Takes.orElse
    {attempt other : Attempt}
    {otherTaken : Nat}
    (takes : attempt.Takes cursor taken)
    (otherTakes : other.Takes cursor otherTaken) :
    (attempt.orElse other).Takes cursor (min taken otherTaken) := by
  obtain ⟨next?, furthest⟩ := attempt
  cases next? with
  | none => exact (otherTakes.mono (Nat.min_le_right taken otherTaken)).noting takes.2
  | some next => exact takes.mono (Nat.min_le_left taken otherTaken)

end Attempt

/-- Repetition may take nothing, but never goes back. -/
theorem takes_repeated
    {attempt : Cursor → Attempt}
    (takes : ∀ cursor, (attempt cursor).Takes cursor 0)
    (cursor : Cursor) :
    (repeated attempt cursor).Takes cursor 0 := by
  fun_induction repeated attempt cursor with
  | case1 cursor none =>
      exact ⟨by simpa using cursor.behind_refl, (takes cursor).2⟩
  | case2 cursor next found progress inductionHypothesis =>
      have behind := (takes cursor).1 next found
      obtain ⟨nexts, bounded⟩ := inductionHypothesis
      rw [behind.limit] at bounded
      exact ⟨fun last reached => behind.trans (nexts last reached),
        sup_le (takes cursor).2 bounded⟩
  | case3 cursor next found stuck =>
      exact takes cursor

namespace Expression

/-- A number of characters that an expression takes at least, wherever it fits. -/
def least : Expression → Nat
  | character _ => 1
  | sequence first second => first.least + second.least
  | choice first second => min first.least second.least
  | rule _ body => body.least
  | _ => 0

/-- Every expression takes at least its least number of characters, and stays in the text. -/
theorem takes_run
    (expression : Expression)
    (cursor : Cursor) :
    (expression.run cursor).Takes cursor expression.least := by
  induction expression generalizing cursor with
  | empty =>
      exact Attempt.takes_fit cursor.behind_refl
  | character inClass =>
      obtain ⟨position, rest⟩ := cursor
      cases rest with
      | nil =>
          exact Attempt.takes_misfit ⟨position, []⟩ 1
      | cons c rest =>
          simp only [run]
          split
          · exact Attempt.takes_fit ⟨[c], rfl, rfl, Nat.le_refl 1⟩
          · exact Attempt.takes_misfit ⟨position, c :: rest⟩ 1
  | endOfText =>
      simp only [run]
      split
      · exact Attempt.takes_fit cursor.behind_refl
      · exact Attempt.takes_failed cursor 0
  | sequence first second firstHypothesis secondHypothesis =>
      exact (firstHypothesis cursor).andThen secondHypothesis
  | choice first second firstHypothesis secondHypothesis =>
      exact (firstHypothesis cursor).orElse (secondHypothesis cursor)
  | repetition body inductionHypothesis =>
      exact takes_repeated (fun next => (inductionHypothesis next).mono (Nat.zero_le _)) cursor
  | absence body inductionHypothesis =>
      simp only [run]
      split
      · exact Attempt.takes_fit cursor.behind_refl
      · exact Attempt.takes_misfit cursor 0
  | rule name body inductionHypothesis =>
      have takes := (inductionHypothesis cursor).orElse (Attempt.takes_failed cursor body.least)
      rwa [Nat.min_self] at takes

/-- An expression takes a word from the front of a text. -/
theorem behind_of_run
    {expression : Expression}
    {cursor next : Cursor}
    {furthest : WithBot Nat}
    (found : expression.run cursor = ⟨some next, furthest⟩) :
    next.Behind cursor expression.least :=
  (takes_run expression cursor).1 next (by simp [found])

/-- No rule is tried behind the end of the text. -/
theorem furthest_le_limit
    (expression : Expression)
    (cursor : Cursor) :
    (expression.run cursor).furthest ≤ .some cursor.limit :=
  (takes_run expression cursor).2

/-- An expression that takes something leaves less text than there was. -/
theorem length_lt_of_run
    {expression : Expression}
    (positive : 0 < expression.least)
    {cursor next : Cursor}
    {furthest : WithBot Nat}
    (found : expression.run cursor = ⟨some next, furthest⟩) :
    next.rest.length < cursor.rest.length := by
  obtain ⟨word, splits, _, most⟩ := behind_of_run found
  rw [splits, List.length_append]
  omega

/-! ## Repetitions with blanks between -/

theorem exists_run_repetition
    (body : Expression)
    (cursor : Cursor) :
    ∃ next furthest, (repetition body).run cursor = ⟨some next, furthest⟩ := by
  rw [run]
  fun_induction repeated body.run cursor with
  | case1 cursor none =>
      exact ⟨cursor, _, rfl⟩
  | case2 cursor next found progress inductionHypothesis =>
      obtain ⟨last, furthest, reached⟩ := inductionHypothesis
      rw [reached]
      exact ⟨last, _, rfl⟩
  | case3 cursor next found stuck =>
      exact ⟨next, _, congrArg (Attempt.mk · _) found⟩

/-- An expression as often as it fits, with what may be skipped between one time and the next. -/
def spaced (skip body : Expression) : Expression :=
  optional (sequence body (repetition (sequence skip body)))

/--
Where something is skipped before and after an expression that is repeated, it is the
same to skip before each time.
-/
theorem run_spaced
    {skip body : Expression}
    (skips : ∀ cursor, ∃ next, skip.run cursor = .fit next ∧ skip.run next = .fit next)
    (positive : 0 < body.least)
    (later : Expression)
    (cursor : Cursor) :
    (sequence skip (sequence (spaced skip body) (sequence skip later))).run cursor =
      (sequence (repetition (sequence skip body)) (sequence skip later)).run cursor := by
  obtain ⟨next, skipped, skippedAgain⟩ := skips cursor
  have onward : (sequence skip body).run cursor = body.run next := by
    rw [run_sequence, skipped, Attempt.andThen_fit]
  have same : (sequence skip later).run next = (sequence skip later).run cursor := by
    rw [run_sequence, run_sequence, skipped, skippedAgain]
  rw [run_sequence, skipped, Attempt.andThen_fit, run_sequence, run_sequence, spaced,
    run_optional, run_sequence]
  cases bodyRun : body.run next with
  | mk middle? furthest =>
      cases middle? with
      | none =>
          have stopped : (repetition (sequence skip body)).run cursor = ⟨some cursor, furthest⟩ :=
            repeated_of_none (onward.trans bodyRun)
          rw [stopped, Attempt.andThen_none, Attempt.orElse_none, Attempt.noting_andThen,
            Attempt.andThen_fit, Attempt.andThen_some, same]
      | some middle =>
          have shorter : next.rest.length ≤ cursor.rest.length := by
            obtain ⟨word, splits, _⟩ := behind_of_run skipped
            rw [splits, List.length_append]
            exact Nat.le_add_left _ _
          have progress := (length_lt_of_run positive bodyRun).trans_le shorter
          have goesOn :
              (repetition (sequence skip body)).run cursor =
                ((repetition (sequence skip body)).run middle).noting furthest :=
            repeated_of_some (onward.trans bodyRun) progress
          obtain ⟨last, reached, ended⟩ :=
            exists_run_repetition (sequence skip body) middle
          rw [goesOn, Attempt.andThen_some, ended]
          rfl

end Expression

end TinyMips.Peg
