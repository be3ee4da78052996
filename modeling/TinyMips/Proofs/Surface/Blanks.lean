import Mathlib.Data.Option.Defs
import TinyMips.Proofs.Assembly.Alike
import TinyMips.Proofs.Grammar.Line

namespace TinyMips

/-!
# Runs of blanks

Wherever a line has blanks, any other blanks do as well, as long as some are left. No token
has a blank in it, so a line with other runs of blanks has the same tokens, in its labels,
its mnemonic and its operands, and what is left of a directive or a comment says nothing.
-/

/-- Texts that differ in runs of blanks alone, with each run in the same place. -/
inductive Spaced : Text → Text → Prop where
  | nil :
      Spaced [] []
  | char
      {old new : Text}
      (c : Char)
      (later : Spaced old new) :
      Spaced (c :: old) (c :: new)
  | blanks
      {oldRun newRun old new : Text}
      (oldThere : oldRun ≠ [])
      (oldBlanks : Grammar.Blanks oldRun)
      (newThere : newRun ≠ [])
      (newBlanks : Grammar.Blanks newRun)
      (later : Spaced old new) :
      Spaced (oldRun ++ old) (newRun ++ new)

namespace Spaced

open Grammar

theorem refl (text : Text) :
    Spaced text text := by
  induction text with
  | nil => exact .nil
  | cons c text inductionHypothesis => exact .char c inductionHypothesis

/-- The same text may stand before texts that differ in blanks alone. -/
theorem append
    (before : Text)
    {old new : Text}
    (spaced : Spaced old new) :
    Spaced (before ++ old) (before ++ new) := by
  induction before with
  | nil => exact spaced
  | cons c before inductionHypothesis => exact .char c inductionHypothesis

/-- There are no blanks to change in an empty text. -/
theorem of_nil
    {new : Text}
    (spaced : Spaced [] new) :
    new = [] := by
  generalize shape : [] = old at spaced
  cases spaced with
  | nil => rfl
  | char => simp at shape
  | blanks oldThere => exact absurd (List.append_eq_nil_iff.mp shape.symm).1 oldThere

/-- A visible character stays where it is. -/
theorem of_visible
    {c : Char}
    (visible : Text.isBlank c = false)
    {old new : Text}
    (spaced : Spaced (c :: old) new) :
    ∃ rest, new = c :: rest ∧ Spaced old rest := by
  generalize shape : c :: old = whole at spaced
  cases spaced with
  | nil => simp at shape
  | char other later =>
      obtain ⟨rfl, rfl⟩ := List.cons.inj shape
      exact ⟨_, rfl, later⟩
  | @blanks oldRun newRun old new oldThere oldBlanks newThere newBlanks later =>
      obtain ⟨blank, run, rfl⟩ := List.exists_cons_of_ne_nil oldThere
      obtain ⟨rfl, _⟩ := List.cons.inj shape
      simp [oldBlanks.head] at visible

/-- A word without blanks stays where it is. -/
theorem of_word
    {word : Text}
    (visible : ∀ c ∈ word, Text.isBlank c = false)
    {old new : Text}
    (spaced : Spaced (word ++ old) new) :
    ∃ rest, new = word ++ rest ∧ Spaced old rest := by
  induction word generalizing new with
  | nil =>
      exact ⟨new, rfl, spaced⟩
  | cons c word inductionHypothesis =>
      obtain ⟨rest, rfl, later⟩ := of_visible (visible c (by simp)) spaced
      obtain ⟨others, rfl, after⟩ :=
        inductionHypothesis (fun other member => visible other (by simp [member])) later
      exact ⟨others, rfl, after⟩

/-- Blanks that something else follows are replaced by blanks, none of them by none. -/
theorem of_blanks
    {blanks : Text}
    (areBlanks : Blanks blanks)
    {old new : Text}
    (stops : Token.Stops Text.isBlank old)
    (spaced : Spaced (blanks ++ old) new) :
    ∃ others rest,
      new = others ++ rest ∧ Blanks others ∧ (others = [] ↔ blanks = []) ∧ Spaced old rest := by
  generalize shape : blanks ++ old = whole at spaced
  induction spaced generalizing blanks with
  | nil =>
      obtain ⟨rfl, rfl⟩ := List.append_eq_nil_iff.mp shape
      exact ⟨[], [], rfl, .nil, Iff.rfl, .nil⟩
  | @char later newLater c spaced inductionHypothesis =>
      cases blanks with
      | nil =>
          obtain rfl : old = c :: later := shape
          exact ⟨[], _, rfl, .nil, Iff.rfl, .char c spaced⟩
      | cons blank blanks =>
          obtain ⟨rfl, rest⟩ := List.cons.inj shape
          obtain ⟨first, others⟩ := List.forall_mem_cons.mp areBlanks
          obtain ⟨run, after, rfl, isRun, _, spacedAfter⟩ := inductionHypothesis others rest
          exact ⟨blank :: run, after, rfl, List.forall_mem_cons.mpr ⟨first, isRun⟩, by simp,
            spacedAfter⟩
  | @blanks oldRun newRun later newLater oldThere oldBlanks newThere newBlanks spaced
      inductionHypothesis =>
      -- The whole run is among the blanks, because what follows them is none.
      obtain ⟨more, rfl, rest⟩ : ∃ more, blanks = oldRun ++ more ∧ more ++ old = later := by
        rcases List.append_eq_append_iff.mp shape with ⟨more, rfl, rest⟩ | ⟨more, same, rest⟩
        · cases more with
          | nil => exact ⟨[], by simp, rest⟩
          | cons c more =>
              have blank : Text.isBlank c = true := oldBlanks c (by simp)
              rw [rest] at stops
              simp [Token.stops_cons_iff.mp stops] at blank
        · exact ⟨more, same, rest.symm⟩
      have moreBlanks : Blanks more := fun c member => areBlanks c (by simp [member])
      obtain ⟨run, after, rfl, isRun, _, spacedAfter⟩ := inductionHypothesis moreBlanks rest
      refine ⟨newRun ++ run, after, by simp, List.forall_mem_append.mpr ⟨newBlanks, isRun⟩, ?_,
        spacedAfter⟩
      simp [oldThere, newThere]

/-! ## The parts of a line -/

/-- Whatever blanks change in the tail of a line, it stays a tail. -/
theorem tail
    {old new : Text}
    (spaced : Spaced old new)
    (isTail : Tail old) :
    Tail new := by
  obtain ⟨blanks, isComment⟩ := isTail
  obtain ⟨others, rest, rfl, otherBlanks, _, later⟩ := of_blanks blanks isComment.stops spaced
  cases isComment with
  | none =>
      rw [later.of_nil]
      exact .mk otherBlanks .none
  | comment text =>
      obtain ⟨more, rfl, _⟩ := of_visible (by decide) later
      exact .mk otherBlanks (.comment more)

/-- Other blanks make another separator, and the texts behind the two differ in blanks alone. -/
theorem separator
    {separator : Text}
    (isSeparator : Separator separator)
    {old new : Text}
    (stops : Token.Stops Text.isBlank old)
    (spaced : Spaced (separator ++ old) new) :
    ∃ other rest, new = other ++ rest ∧ Separator other ∧ Spaced old rest := by
  cases isSeparator with
  | @comma before after blanksBefore blanksAfter =>
      rw [List.append_assoc, List.cons_append] at spaced
      obtain ⟨first, rest, rfl, firstBlanks, _, fromComma⟩ :=
        of_blanks blanksBefore (Token.stops_cons_iff.mpr (by decide)) spaced
      obtain ⟨rest, rfl, afterComma⟩ := of_visible (by decide) fromComma
      obtain ⟨second, rest, rfl, secondBlanks, _, later⟩ := of_blanks blanksAfter stops afterComma
      exact ⟨first ++ ',' :: second, rest, by simp, .comma firstBlanks secondBlanks, later⟩
  | blanks nonempty blanks =>
      obtain ⟨others, rest, rfl, otherBlanks, there, later⟩ := of_blanks blanks stops spaced
      exact ⟨others, rest, rfl, .blanks (mt there.mp nonempty) otherBlanks, later⟩

/-- Words of a class without blanks are visible throughout. -/
theorem visible_of_class
    {inClass : Char → Bool}
    {word : Text}
    (inside : Only inClass word)
    (noSpace : inClass ' ' = false)
    (noTab : inClass '\t' = false) :
    ∀ c ∈ word, Text.isBlank c = false :=
  fun c member => Text.isBlank_of_class (inside c member) noSpace noTab

theorem visible_of_identifier
    {name : Text}
    (isIdentifier : Identifier name) :
    ∀ c ∈ name, Text.isBlank c = false :=
  visible_of_class (Operand.onlyOperandChar_of_identifier isIdentifier) (by decide) (by decide)

/-- No operand has a blank in it. -/
theorem visible_of_isOperand
    {text : Text}
    {operand : Operand}
    (isOperand : IsOperand text operand) :
    ∀ c ∈ text, Text.isBlank c = false :=
  visible_of_class (Operand.onlyOperandChar_of_isOperand isOperand) (by decide) (by decide)

open Statement in
/-- Operands stay, and the separators before them are separators again. -/
theorem separated
    {others : List Separated}
    (areSeparated : AreSeparated others)
    {tail new : Text}
    (isTail : Tail tail)
    (spaced : Spaced (separatedTexts others ++ tail) new) :
    ∃ news rest,
      new = separatedTexts news ++ rest ∧
        AreSeparated news ∧ news.map Prod.snd = others.map Prod.snd ∧ Tail rest := by
  induction others generalizing new with
  | nil =>
      exact ⟨[], new, rfl, areSeparated, rfl, spaced.tail isTail⟩
  | cons one others inductionHypothesis =>
      obtain ⟨separator, operand⟩ := one
      obtain ⟨⟨isSeparator, isOperand⟩, areLater⟩ := areSeparated_cons_iff.mp areSeparated
      have shape :
          separatedTexts ((separator, operand) :: others) ++ tail =
            separator ++ (operand.text ++ (separatedTexts others ++ tail)) := by
        simp [separatedTexts, separatedText]
      rw [shape] at spaced
      obtain ⟨newSeparator, _, rfl, isNew, fromOperand⟩ :=
        Spaced.separator isSeparator (Operand.notBlank_of_isOperand isOperand _) spaced
      obtain ⟨_, rfl, later⟩ := of_word (visible_of_isOperand isOperand) fromOperand
      obtain ⟨news, rest, rfl, areNew, sameOperands, isRest⟩ := inductionHypothesis areLater later
      refine ⟨(newSeparator, operand) :: news, rest, by simp [separatedTexts, separatedText],
        areSeparated_cons_iff.mpr ⟨⟨isNew, isOperand⟩, areNew⟩, ?_, isRest⟩
      simp [sameOperands]

/-- An instruction stays one with the same mnemonic and the same operands. -/
theorem instruction
    {text : Text}
    {statement : Statement}
    (isInstruction : IsInstruction text statement)
    {tail new : Text}
    (isTail : Tail tail)
    (spaced : Spaced (text ++ tail) new) :
    ∃ newText rest other,
      new = newText ++ rest ∧ IsInstruction newText other ∧ statement.Alike other ∧ Tail rest := by
  cases isInstruction with
  | bare nonempty letters =>
      obtain ⟨rest, rfl, later⟩ :=
        of_word (visible_of_class letters (by decide) (by decide)) spaced
      exact ⟨text, rest, _, rfl, .bare nonempty letters, Statement.alike_of_same rfl rfl,
        later.tail isTail⟩
  | @applied mnemonic blanks _ operands nonempty letters apart areBlanks areOperands =>
      obtain ⟨first, others, isFirst, areSeparated, rfl, rfl⟩ :=
        Statement.operands_iff.mp areOperands
      simp only [List.append_assoc] at spaced
      obtain ⟨_, rfl, fromBlanks⟩ :=
        of_word (visible_of_class letters (by decide) (by decide)) spaced
      obtain ⟨newBlanks, _, rfl, areNewBlanks, there, fromFirst⟩ :=
        of_blanks areBlanks (Operand.notBlank_of_isOperand isFirst _) fromBlanks
      obtain ⟨_, rfl, fromOthers⟩ := of_word (visible_of_isOperand isFirst) fromFirst
      obtain ⟨news, rest, rfl, areNew, sameOperands, isRest⟩ :=
        separated areSeparated isTail fromOthers
      have newOperands :=
        Statement.operands_iff.mpr ⟨first, news, isFirst, areNew, rfl, rfl⟩
      refine ⟨_, rest, _, ?_,
        .applied nonempty letters (mt there.mp apart) areNewBlanks newOperands,
        Statement.alike_of_same rfl ?_, isRest⟩
      · simp
      · simp [sameOperands]

/-- Other blanks leave a body that says the same. -/
theorem remainder
    {old new : Text}
    {statement? : Option Statement}
    (spaced : Spaced old new)
    (remainder : Content.Remainder old statement?) :
    ∃ other?, Content.Remainder new other? ∧ Option.Rel Statement.Alike statement? other? := by
  obtain ⟨isBody, isTail⟩ := remainder
  cases isBody with
  | nothing =>
      exact ⟨none, .mk .nothing (spaced.tail isTail), .none⟩
  | directive _ =>
      rw [List.cons_append] at spaced
      obtain ⟨rest, rfl, _⟩ := of_visible (by decide) spaced
      exact ⟨none, Content.remainder_of_directive rest, .none⟩
  | instruction isInstruction =>
      obtain ⟨newText, rest, other, rfl, isNew, alike, isRest⟩ :=
        instruction isInstruction isTail spaced
      exact ⟨some other, .mk (.instruction isNew) isRest, .some alike⟩

/-! ## Whole lines -/

/-- Skipping leaves texts that differ in runs of blanks alone, as before. -/
theorem skip
    {old new : Text}
    (spaced : Spaced old new) :
    Spaced (Token.skip old) (Token.skip new) := by
  rcases Token.skip_cases old with ⟨blanks, areBlanks, shape⟩ | ⟨nothing, isTail⟩
  · cases skipped : Token.skip old with
    | nil =>
        rw [Token.skip_tail (spaced.tail (Token.skip_eq_nil_iff.mp skipped))]
        exact .nil
    | cons c rest =>
        obtain ⟨visible, noComment⟩ := Token.skip_head skipped
        rw [shape, skipped] at spaced
        obtain ⟨others, _, rfl, otherBlanks, _, fromVisible⟩ :=
          of_blanks areBlanks (Token.stops_cons_iff.mpr visible) spaced
        obtain ⟨newRest, rfl, later⟩ := of_visible visible fromVisible
        rw [Token.skip_append otherBlanks, Token.skip_of_stops visible noComment]
        exact .char c later
  · rw [nothing, Token.skip_tail (spaced.tail isTail)]
    exact .nil

/-- A line with other runs of blanks has the same labels and a statement that means the same. -/
theorem isLine
    {names : List Text}
    {statement? : Option Statement}
    {old new : Text}
    (spaced : Spaced old new)
    (isLine : IsLine old ⟨names, statement?⟩) :
    ∃ other?, IsLine new ⟨names, other?⟩ ∧ Option.Rel Statement.Alike statement? other? := by
  induction names generalizing old new with
  | nil =>
      rcases Content.isLine_iff.mp isLine with ⟨_, remainder⟩ | ⟨_, _, _, _, _, impossible, _⟩
      · obtain ⟨other?, newRemainder, alike⟩ := spaced.skip.remainder remainder
        exact ⟨other?, Content.isLine_of_remainder_skip newRemainder, alike⟩
      · simp at impossible
  | cons name names inductionHypothesis =>
      rcases Content.isLine_iff.mp isLine with
        ⟨impossible, _⟩ | ⟨label, rest, later, isIdentifier, shape, same, isLater⟩
      · simp at impossible
      · obtain ⟨rfl, rfl⟩ := List.cons.inj same
        have skipped := spaced.skip
        rw [shape] at skipped
        obtain ⟨_, newShape, fromColon⟩ := of_word (visible_of_identifier isIdentifier) skipped
        obtain ⟨newRest, rfl, fromRest⟩ := of_visible (by decide) fromColon
        obtain ⟨other?, isNew, alike⟩ := inductionHypothesis fromRest isLater
        exact ⟨other?,
          Content.isLine_iff.mpr (.inr ⟨name, newRest, names, isIdentifier, newShape, rfl, isNew⟩),
          alike⟩

end Spaced

end TinyMips
