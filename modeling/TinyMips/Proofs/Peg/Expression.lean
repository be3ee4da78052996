import Mathlib.Algebra.Order.Group.Nat
import Mathlib.Algebra.Order.Monoid.Unbundled.MinMax
import Mathlib.Algebra.Order.Monoid.Unbundled.WithTop
import Mathlib.Order.Lattice.Nat
import TinyMips.Text.Basic

namespace TinyMips.Peg

/-!
# Parsing expressions

A parsing expression is tried at a place in a text. The first part of a choice that fits
settles the choice, and a repetition takes all that fits; neither is taken back later. A
rule that is tried in vain is remembered by the place where it was tried, and the
furthest such place is where a text that does not fit is reported.
-/

/-- A place in a text: how many characters come before it, and the text after it. -/
structure Cursor where
  position : Nat
  rest : Text
  deriving DecidableEq, Repr

/-- The position of the end of the text. -/
def Cursor.limit (cursor : Cursor) : Nat :=
  cursor.position + cursor.rest.length

/--
What became of an expression: the place after it, if it fit, and the furthest place
where a rule was tried in vain, if there was one.
-/
structure Attempt where
  next? : Option Cursor
  furthest : WithBot Nat
  deriving DecidableEq

namespace Attempt

/-- The expression fit, and no rule was tried in vain. -/
def fit (next : Cursor) : Attempt :=
  ⟨some next, ⊥⟩

/-- The expression did not fit, and no rule was tried in vain. -/
def misfit : Attempt :=
  ⟨none, ⊥⟩

/-- A rule was tried in vain. -/
def failed (position : Nat) : Attempt :=
  ⟨none, .some position⟩

/-- The attempt, after another one that went as far as `earlier` in vain. -/
def noting (attempt : Attempt) (earlier : WithBot Nat) : Attempt :=
  { attempt with furthest := earlier ⊔ attempt.furthest }

/-- What becomes of two attempts of which the second one starts where the first one ends. -/
def andThen (attempt : Attempt) (later : Cursor → Attempt) : Attempt :=
  match attempt.next? with
  | none => attempt
  | some next => (later next).noting attempt.furthest

/-- What becomes of two attempts of which the second one is made if the first one fails. -/
def orElse (attempt other : Attempt) : Attempt :=
  match attempt.next? with
  | none => other.noting attempt.furthest
  | some _ => attempt

@[simp]
theorem noting_bot (attempt : Attempt) :
    attempt.noting ⊥ = attempt := by
  simp [noting]

/-- Noting two places in turn is noting the further one of them. -/
theorem noting_noting
    (attempt : Attempt)
    (later earlier : WithBot Nat) :
    (attempt.noting later).noting earlier = attempt.noting (earlier ⊔ later) := by
  simp [noting, sup_assoc]

/-- After a fit that noted nothing, the later attempt decides alone. -/
@[simp]
theorem andThen_fit
    (next : Cursor)
    (later : Cursor → Attempt) :
    (fit next).andThen later = later next := by
  simp [andThen, fit]

@[simp]
theorem andThen_misfit (later : Cursor → Attempt) :
    misfit.andThen later = misfit :=
  rfl

/-- After a fit, the later attempt decides, and the place noted before is kept. -/
theorem andThen_some
    (next : Cursor)
    (furthest : WithBot Nat)
    (later : Cursor → Attempt) :
    (⟨some next, furthest⟩ : Attempt).andThen later = (later next).noting furthest :=
  rfl

theorem andThen_none
    (furthest : WithBot Nat)
    (later : Cursor → Attempt) :
    (⟨none, furthest⟩ : Attempt).andThen later = ⟨none, furthest⟩ :=
  rfl

/-- It does not matter whether a place is noted before or after a later attempt. -/
theorem noting_andThen
    (attempt : Attempt)
    (earlier : WithBot Nat)
    (later : Cursor → Attempt) :
    (attempt.noting earlier).andThen later = (attempt.andThen later).noting earlier := by
  obtain ⟨next?, furthest⟩ := attempt
  cases next? with
  | none => rfl
  | some next => exact (noting_noting (later next) furthest earlier).symm

/-- Three attempts in a row may be grouped either way. -/
theorem andThen_andThen
    (attempt : Attempt)
    (second third : Cursor → Attempt) :
    (attempt.andThen second).andThen third =
      attempt.andThen fun next => (second next).andThen third := by
  obtain ⟨next?, furthest⟩ := attempt
  cases next? with
  | none => rfl
  | some next => exact noting_andThen (second next) furthest third

@[simp]
theorem orElse_fit
    (next : Cursor)
    (other : Attempt) :
    (fit next).orElse other = fit next :=
  rfl

@[simp]
theorem misfit_orElse (other : Attempt) :
    misfit.orElse other = other :=
  noting_bot other

/-- Where an attempt fits, its alternative is not tried. -/
theorem orElse_some
    (next : Cursor)
    (furthest : WithBot Nat)
    (other : Attempt) :
    (⟨some next, furthest⟩ : Attempt).orElse other = ⟨some next, furthest⟩ :=
  rfl

/-- Where an attempt fails, its alternative decides, and the place noted before is kept. -/
theorem orElse_none
    (furthest : WithBot Nat)
    (other : Attempt) :
    (⟨none, furthest⟩ : Attempt).orElse other = other.noting furthest :=
  rfl

end Attempt

/-- The rules of the grammar that have a place in a parse tree. -/
inductive RuleName where
  | program
  | line
  | label
  | directive
  | instruction
  | mnemonic
  | memory
  | register
  | immediate
  | identifier
  | assertion
  | block
  | combinator
  | integer
  | endOfText
  deriving DecidableEq, Repr

/-- A parsing expression. -/
inductive Expression where
  /-- Nothing. -/
  | empty
  /-- One character of a class. -/
  | character (inClass : Char → Bool)
  /-- The end of the text. -/
  | endOfText
  /-- One expression and then another one. -/
  | sequence (first second : Expression)
  /-- An expression, or another one where it does not fit. -/
  | choice (first second : Expression)
  /-- An expression as often as it fits. -/
  | repetition (body : Expression)
  /-- The place where an expression does not fit. -/
  | absence (body : Expression)
  /-- An expression with a name, whose failure is remembered. -/
  | rule (name : RuleName) (body : Expression)

/-- An attempt made again and again, until it fails or takes nothing. -/
def repeated
    (attempt : Cursor → Attempt)
    (cursor : Cursor) :
    Attempt :=
  match (attempt cursor).next? with
  | none => ⟨some cursor, (attempt cursor).furthest⟩
  | some next =>
      if next.rest.length < cursor.rest.length then
        (repeated attempt next).noting (attempt cursor).furthest
      else
        attempt cursor
  termination_by cursor.rest.length

/-- An attempt that fails ends the repetition. -/
theorem repeated_of_none
    {attempt : Cursor → Attempt}
    {cursor : Cursor}
    {furthest : WithBot Nat}
    (failed : attempt cursor = ⟨none, furthest⟩) :
    repeated attempt cursor = ⟨some cursor, furthest⟩ := by
  rw [repeated, failed]

/-- An attempt that takes something is made again. -/
theorem repeated_of_some
    {attempt : Cursor → Attempt}
    {cursor next : Cursor}
    {furthest : WithBot Nat}
    (found : attempt cursor = ⟨some next, furthest⟩)
    (progress : next.rest.length < cursor.rest.length) :
    repeated attempt cursor = (repeated attempt next).noting furthest := by
  rw [repeated, found]
  simp [progress]

namespace Expression

/-- One given character. -/
def exactly (c : Char) : Expression :=
  character (· = c)

/-- An expression, if it fits. -/
def optional (body : Expression) : Expression :=
  choice body empty

/-- An expression as often as it fits, but at least once. -/
def atLeastOnce (body : Expression) : Expression :=
  sequence body (repetition body)

/-- Try an expression at a place. -/
def run : Expression → Cursor → Attempt
  | empty, cursor => .fit cursor
  | character inClass, cursor =>
      match cursor.rest with
      | [] => .misfit
      | c :: rest => if inClass c then .fit ⟨cursor.position + 1, rest⟩ else .misfit
  | endOfText, cursor =>
      if cursor.rest.isEmpty then .fit cursor else .failed cursor.position
  | sequence first second, cursor => (first.run cursor).andThen second.run
  | choice first second, cursor => (first.run cursor).orElse (second.run cursor)
  | repetition body, cursor => repeated body.run cursor
  | absence body, cursor =>
      if (body.run cursor).next?.isNone then .fit cursor else .misfit
  | rule _ body, cursor =>
      (body.run cursor).orElse (.failed cursor.position)

/-! ## Running expressions -/

variable {position : Nat} {text : Text} {cursor : Cursor}

theorem run_sequence
    (first second : Expression)
    (cursor : Cursor) :
    (sequence first second).run cursor = (first.run cursor).andThen second.run :=
  rfl

theorem run_choice
    (first second : Expression)
    (cursor : Cursor) :
    (choice first second).run cursor = (first.run cursor).orElse (second.run cursor) :=
  rfl

/-- A rule fits as its body does; where the body fails, the rule itself is noted. -/
theorem run_rule
    (name : RuleName)
    (body : Expression)
    (cursor : Cursor) :
    (rule name body).run cursor = (body.run cursor).orElse (.failed cursor.position) :=
  rfl

/-- A rule fits where its expression fits. -/
theorem next?_run_rule
    (name : RuleName)
    (body : Expression)
    (cursor : Cursor) :
    ((rule name body).run cursor).next? = (body.run cursor).next? := by
  rw [run_rule]
  obtain ⟨next?, furthest⟩ := body.run cursor
  cases next? <;> rfl

theorem run_optional
    (body : Expression)
    (cursor : Cursor) :
    (optional body).run cursor = (body.run cursor).orElse (.fit cursor) :=
  rfl

/-- Nested sequences may be grouped either way. -/
theorem run_sequence_assoc
    (first second third : Expression)
    (cursor : Cursor) :
    (sequence (sequence first second) third).run cursor =
      (sequence first (sequence second third)).run cursor :=
  Attempt.andThen_andThen (first.run cursor) second.run third.run

end Expression

end TinyMips.Peg
