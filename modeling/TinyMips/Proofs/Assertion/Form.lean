import TinyMips.Assertion.Reader
import TinyMips.Proofs.Grammar.Operand
import TinyMips.Proofs.Text.Trim

namespace TinyMips

/-!
# The form of assertions

Which texts have the form of an assertion, and what their parts are. The reader never tries
a part again, yet it finds exactly the texts of the form: an integer ends where no name
could go on, and an operation begins with a character that neither blanks nor the last
parenthesis do.
-/

namespace Grammar

/-- A natural number, and maybe a minus sign before it. -/
inductive Integer : Text → Prop where
  | natural
      {text : Text}
      (natural : Natural text) :
      Integer text
  | negative
      {text : Text}
      (natural : Natural text) :
      Integer ('-' :: text)

/-- An integer, or two with an operation between them: one blank may stand before it, many after. -/
inductive IsExpectation : Text → Expectation → Prop where
  | one
      {first : Text}
      (isFirst : Integer first) :
      IsExpectation first ⟨first, none⟩
  | two
      {first gap blanks second : Text}
      {combinator : Combinator}
      (isFirst : Integer first)
      (blankGap : Blanks gap)
      (narrow : gap.length ≤ 1)
      (areBlanks : Blanks blanks)
      (isSecond : Integer second) :
      IsExpectation (first ++ (gap ++ combinator.symbol :: (blanks ++ second)))
        ⟨first, some (combinator, second)⟩

/-- The wording of an assertion, with blanks in four places. -/
inductive IsAssertion : Text → AssertionParts → Prop where
  | mk
      {opening before after closing index expected : Text}
      {block : Block}
      {expectation : Expectation}
      (blankOpening : Blanks opening)
      (isIndex : Integer index)
      (blankBefore : Blanks before)
      (blankAfter : Blanks after)
      (isExpectation : IsExpectation expected expectation)
      (blankClosing : Blanks closing) :
      IsAssertion
        (Text.ofString "assert(" ++ (opening ++ (Text.ofString "sim.inspect_mem(" ++
          (block.name ++ (Text.ofString ")[" ++ (index ++ (Text.ofString "]" ++ (before ++
            (Text.ofString "==" ++ (after ++ (expected ++ (closing ++ Text.ofString ")"))))))))))))
        ⟨block, index, expectation⟩

/-- An integer has the form of an immediate. -/
theorem Integer.immediate
    {text : Text}
    (isInteger : Integer text) :
    Immediate text := by
  cases isInteger with
  | natural natural => exact .unsigned natural
  | negative natural => exact .signed (.inl rfl) natural

theorem IsAssertion.index
    {text : Text}
    {parts : AssertionParts}
    (isAssertion : IsAssertion text parts) :
    Integer parts.index := by
  cases isAssertion with
  | mk _ isIndex _ _ _ _ => exact isIndex

theorem IsAssertion.expectation
    {text : Text}
    {parts : AssertionParts}
    (isAssertion : IsAssertion text parts) :
    ∃ written, IsExpectation written parts.expectation := by
  cases isAssertion with
  | mk _ _ _ _ isExpectation _ => exact ⟨_, isExpectation⟩

/-- An assertion begins with a letter and ends with a parenthesis. -/
theorem IsAssertion.ends
    {text : Text}
    {parts : AssertionParts}
    (isAssertion : IsAssertion text parts) :
    text.head? = some 'a' ∧ text.getLast? = some ')' := by
  have opening : (Text.ofString "assert(").head? = some 'a' := by
    decide
  have closing : Text.ofString ")" = [')'] := by
    decide
  cases isAssertion
  exact ⟨by simp [opening], by simp [closing]⟩

end Grammar

namespace Combinator

/-- An operation is found by its own character only. -/
theorem ofSymbol?_eq_some_iff
    {c : Char}
    {combinator : Combinator} :
    ofSymbol? c = some combinator ↔ c = combinator.symbol := by
  constructor
  · intro found
    unfold ofSymbol? at found
    have isSymbol := List.find?_some found
    exact (of_decide_eq_true isSymbol).symm
  · rintro rfl
    cases combinator <;> rfl

/-- No operation is written with a blank. -/
theorem isBlank_symbol
    (combinator : Combinator) :
    Text.isBlank combinator.symbol = false := by
  cases combinator <;> rfl

theorem isNameRest_symbol
    (combinator : Combinator) :
    Text.isNameRest combinator.symbol = false := by
  cases combinator <;> rfl

end Combinator

namespace AssertionParts

open Grammar

/-! ## Blanks and wording -/

/-- Only blanks are skipped. -/
theorem exists_blanks_skipBlanks (text : Text) :
    ∃ blanks : Text, Blanks blanks ∧ text = blanks ++ skipBlanks text :=
  ⟨_, Token.only_run Text.isBlank text, (Token.run_splits Text.isBlank text).symm⟩

/-- All blanks are skipped where something else comes behind them. -/
theorem skipBlanks_append
    {blanks rest : Text}
    (areBlanks : Blanks blanks)
    (notBlank : Token.Stops Text.isBlank rest) :
    skipBlanks (blanks ++ rest) = rest :=
  congrArg Token.Cut.rest (Token.run_append areBlanks notBlank)

/-- At most one blank is skipped. -/
theorem exists_gap_skipOneBlank (text : Text) :
    ∃ gap : Text, Blanks gap ∧ gap.length ≤ 1 ∧ text = gap ++ skipOneBlank text := by
  cases text with
  | nil =>
      exact ⟨[], by simp [Blanks, Only], by simp, rfl⟩
  | cons c text =>
      by_cases blank : Text.isBlank c = true
      · exact ⟨[c], by simpa [Blanks, Only] using blank, by simp, by simp [skipOneBlank, blank]⟩
      · exact ⟨[], by simp [Blanks, Only], by simp, by simp [skipOneBlank, blank]⟩

/-- One blank, or none, is skipped where something else comes behind it. -/
theorem skipOneBlank_append
    {gap rest : Text}
    (blankGap : Blanks gap)
    (narrow : gap.length ≤ 1)
    (notBlank : Token.Stops Text.isBlank rest) :
    skipOneBlank (gap ++ rest) = rest := by
  cases gap with
  | nil =>
      cases rest with
      | nil => rfl
      | cons c rest => simp [skipOneBlank, Token.stops_cons_iff.mp notBlank]
  | cons c gap =>
      obtain rfl : gap = [] := List.eq_nil_of_length_eq_zero (by simpa using narrow)
      simp [skipOneBlank, blankGap c (by simp)]

/-- A run stops where wording of another class begins. -/
theorem stops_wording
    {inClass : Char → Bool}
    {wording : Text}
    {c : Char}
    (head : wording.head? = some c)
    (outside : inClass c = false)
    (rest : Text) :
    Token.Stops inClass (wording ++ rest) := by
  obtain ⟨others, rfl⟩ := List.head?_eq_some_iff.mp head
  exact Token.stops_cons_iff.mpr outside

/-- No name goes on with blanks. -/
theorem notName_blanks_append
    {blanks rest : Text}
    {c : Char}
    (areBlanks : Blanks blanks)
    (notName : Text.isNameRest c = false) :
    Token.Stops Text.isNameRest (blanks ++ c :: rest) := by
  cases blanks with
  | nil =>
      exact Token.stops_cons_iff.mpr notName
  | cons blank blanks =>
      refine Token.stops_cons_iff.mpr ?_
      by_contra inName
      have notBlank := Text.isBlank_of_class (by simpa using inName) (by decide) (by decide)
      simp [areBlanks blank (by simp)] at notBlank

/-- Wording is found exactly where the text begins with it. -/
theorem expect?_eq_some_iff
    {wording : String}
    {text rest : Text} :
    expect? wording text = some rest ↔ text = Text.ofString wording ++ rest :=
  Text.dropPrefix?_eq_some_iff

/-- A block is found exactly where the text begins with its name. -/
theorem block?_eq_some_iff
    {text rest : Text}
    {block : Block} :
    block? text = some (block, rest) ↔ text = block.name ++ rest := by
  unfold block?
  constructor
  · intro found
    split at found
    · rename_i rest registers
      obtain ⟨rfl, rfl⟩ := Prod.mk.inj (Option.some.inj found)
      exact Text.dropPrefix?_eq_some_iff.mp registers
    · obtain ⟨_, memory, same⟩ := Option.map_eq_some_iff.mp found
      obtain ⟨rfl, rfl⟩ := Prod.mk.inj same
      exact Text.dropPrefix?_eq_some_iff.mp memory
  · rintro rfl
    cases block with
    | registers => rfl
    | memory => rfl

/-! ## Integers -/

/-- The digits that are read are a natural number at the front of the text. -/
theorem natural_of_digits?
    {text : Text}
    {cut : Token.Cut}
    (found : digits? text = some cut) :
    Natural cut.token ∧ cut.Splits text := by
  unfold digits? at found
  split at found
  · rename_i digits hexadecimal
    obtain rfl := Option.some.inj found
    obtain ⟨body, marked, digitsFound⟩ := Option.bind_eq_some_iff.mp hexadecimal
    obtain ⟨mark, isMark, rfl⟩ := Token.hexBody?_eq_some_iff.mp marked
    obtain ⟨nonempty, inBase⟩ := Token.only_of_someRun? digitsFound
    have splits := Token.someRun?_splits digitsFound
    exact ⟨.hexadecimal isMark nonempty inBase, congrArg (['0', mark] ++ ·) splits⟩
  · obtain ⟨nonempty, inBase⟩ := Token.only_of_someRun? found
    exact ⟨.decimal nonempty inBase, Token.someRun?_splits found⟩

/-- No mark of base sixteen is in decimal digits, or right after them where a number ends. -/
theorem hexBody?_append_digits
    {digits rest : Text}
    (nonempty : digits ≠ [])
    (inBase : Only Char.isDigit digits)
    (stops : Token.Stops Text.isNameRest rest) :
    Numeral.hexBody? (digits ++ rest) = none := by
  rw [Option.eq_none_iff_forall_ne_some]
  intro body marked
  obtain ⟨mark, isMark, shape⟩ := Token.hexBody?_eq_some_iff.mp marked
  -- The mark would be the second digit, or go on after the only one.
  obtain ⟨first, others, rfl⟩ := List.exists_cons_of_ne_nil nonempty
  cases others with
  | nil =>
      obtain ⟨_, rfl⟩ := List.cons.inj shape
      have outside := Token.stops_cons_iff.mp stops
      rcases isMark with rfl | rfl <;> exact absurd outside (by decide)
  | cons second others =>
      obtain ⟨rfl, _⟩ := List.cons.inj (List.cons.inj shape).2
      have digit := inBase second (by simp)
      rcases isMark with rfl | rfl <;> exact absurd digit (by decide)

/-- A natural number is read whole where no name goes on. -/
theorem digits?_of_natural
    {word rest : Text}
    (natural : Natural word)
    (stops : Token.Stops Text.isNameRest rest) :
    digits? (word ++ rest) = some ⟨word, rest⟩ := by
  cases natural with
  | decimal nonempty inBase =>
      have isDigit : Token.Stops Char.isDigit rest :=
        stops.mono fun c digit => by simp [Text.isNameRest, Char.isAlphanum, digit]
      simp [digits?, hexBody?_append_digits nonempty inBase stops,
        Token.someRun?_append nonempty inBase isDigit]
  | @hexadecimal mark digits isMark nonempty inBase =>
      have body : Numeral.hexBody? ('0' :: mark :: (digits ++ rest)) = some (digits ++ rest) :=
        Token.hexBody?_eq_some_iff.mpr ⟨mark, isMark, rfl⟩
      have isHexDigit : Token.Stops Text.isHexDigit rest :=
        stops.mono fun c => Token.isNameRest_of_isHexDigit
      simp [digits?, body, Token.someRun?_append nonempty inBase isHexDigit]

theorem integer_of_integer?
    {text : Text}
    {cut : Token.Cut}
    (found : integer? text = some cut) :
    Integer cut.token ∧ cut.Splits text := by
  unfold integer? at found
  split at found
  · obtain ⟨digits, digitsFound, rfl⟩ := Option.map_eq_some_iff.mp found
    obtain ⟨natural, splits⟩ := natural_of_digits? digitsFound
    exact ⟨.negative natural, congrArg ('-' :: ·) splits⟩
  · obtain ⟨natural, splits⟩ := natural_of_digits? found
    exact ⟨.natural natural, splits⟩

/-- An integer is read whole where no name goes on. -/
theorem integer?_of_integer
    {word rest : Text}
    (isInteger : Integer word)
    (stops : Token.Stops Text.isNameRest rest) :
    integer? (word ++ rest) = some ⟨word, rest⟩ := by
  cases isInteger with
  | natural natural =>
      have found := digits?_of_natural natural stops
      obtain ⟨c, digits, rfl, digit⟩ := Token.natural_head natural
      have notMinus : c ≠ '-' := Text.ne_of_class digit (by decide)
      rw [integer?]
      · exact found
      · intro body shape
        exact notMinus (List.cons.inj shape).1
  | negative natural =>
      rw [List.cons_append, integer?, digits?_of_natural natural stops, Option.map_some]

/-- An integer does not begin with a blank. -/
theorem notBlank_of_integer
    {word : Text}
    (isInteger : Integer word)
    (rest : Text) :
    Token.Stops Text.isBlank (word ++ rest) :=
  Operand.notBlank_of_isOperand (.immediate isInteger.immediate) rest

/-! ## Expectations -/

/-- What is read behind a first integer is an operation and an integer, at most one blank away. -/
theorem isSecond_of_second?
    {text second rest : Text}
    {combinator : Combinator}
    (found : second? text = some ((combinator, second), rest)) :
    ∃ gap blanks : Text,
      Blanks gap ∧ gap.length ≤ 1 ∧ Blanks blanks ∧ Integer second ∧
        text = gap ++ combinator.symbol :: (blanks ++ (second ++ rest)) := by
  obtain ⟨gap, blankGap, narrow, shape⟩ := exists_gap_skipOneBlank text
  unfold second? at found
  split at found
  · simp at found
  · rename_i c others skipped
    obtain ⟨_, isSymbol, found⟩ := Option.bind_eq_some_iff.mp found
    obtain ⟨cut, cutFound, found⟩ := Option.bind_eq_some_iff.mp found
    obtain ⟨same, rfl⟩ := Prod.mk.inj (Option.some.inj found)
    obtain ⟨rfl, rfl⟩ := Prod.mk.inj same
    obtain rfl := Combinator.ofSymbol?_eq_some_iff.mp isSymbol
    obtain ⟨isInteger, splits⟩ := integer_of_integer? cutFound
    obtain ⟨blanks, areBlanks, shapeOthers⟩ := exists_blanks_skipBlanks others
    refine ⟨gap, blanks, blankGap, narrow, areBlanks, isInteger, ?_⟩
    rw [shape, skipped, splits, ← shapeOthers]

/-- An operation and an integer are read behind a first integer, with the blanks about them. -/
theorem second?_of_isSecond
    {gap blanks second rest : Text}
    (combinator : Combinator)
    (blankGap : Blanks gap)
    (narrow : gap.length ≤ 1)
    (areBlanks : Blanks blanks)
    (isSecond : Integer second)
    (stops : Token.Stops Text.isNameRest rest) :
    second? (gap ++ combinator.symbol :: (blanks ++ (second ++ rest))) =
      some ((combinator, second), rest) := by
  have notBlank :
      Token.Stops Text.isBlank (combinator.symbol :: (blanks ++ (second ++ rest))) :=
    Token.stops_cons_iff.mpr combinator.isBlank_symbol
  rw [second?, skipOneBlank_append blankGap narrow notBlank]
  simp [Combinator.ofSymbol?_eq_some_iff.mpr rfl,
    skipBlanks_append areBlanks (notBlank_of_integer isSecond rest),
    integer?_of_integer isSecond stops]

/-- Where only blanks stand before the last parenthesis there is no operation. -/
theorem second?_of_blanks
    {blanks rest : Text}
    (areBlanks : Blanks blanks) :
    second? (blanks ++ ')' :: rest) = none := by
  have noSymbol
      {c : Char}
      (outside : c = ')' ∨ Text.isBlank c = true) :
      Combinator.ofSymbol? c = none := by
    rw [Option.eq_none_iff_forall_ne_some]
    intro combinator isSymbol
    obtain rfl := Combinator.ofSymbol?_eq_some_iff.mp isSymbol
    cases combinator <;> simp [Combinator.symbol, Text.isBlank] at outside
  -- One blank is left out, and what comes next is a blank again or the parenthesis.
  cases blanks with
  | nil =>
      rfl
  | cons c blanks =>
      have blank := areBlanks c (by simp)
      cases blanks with
      | nil => simp [second?, skipOneBlank, blank, noSymbol]
      | cons d blanks =>
          have another := areBlanks d (by simp)
          simp [second?, skipOneBlank, blank, noSymbol (.inr another)]

/-- No expectation begins with a blank. -/
theorem notBlank_of_isExpectation
    {written : Text}
    {expectation : Expectation}
    (isExpectation : IsExpectation written expectation)
    (rest : Text) :
    Token.Stops Text.isBlank (written ++ rest) := by
  cases isExpectation with
  | one isFirst =>
      exact notBlank_of_integer isFirst rest
  | two isFirst _ _ _ _ =>
      rw [List.append_assoc]
      exact notBlank_of_integer isFirst _

theorem isExpectation_of_expectation?
    {text rest : Text}
    {expectation : Expectation}
    (found : expectation? text = some (expectation, rest)) :
    ∃ written, IsExpectation written expectation ∧ text = written ++ rest := by
  obtain ⟨first, firstFound, found⟩ := Option.bind_eq_some_iff.mp found
  obtain ⟨isFirst, splits⟩ := integer_of_integer? firstFound
  split at found
  · rename_i combined others secondFound
    obtain ⟨combinator, second⟩ := combined
    obtain ⟨rfl, rfl⟩ := Prod.mk.inj (Option.some.inj found)
    obtain ⟨gap, blanks, blankGap, narrow, areBlanks, isSecond, shape⟩ :=
      isSecond_of_second? secondFound
    refine ⟨_, .two isFirst blankGap narrow areBlanks isSecond, ?_⟩
    rw [← splits, shape]
    simp
  · obtain ⟨rfl, rfl⟩ := Prod.mk.inj (Option.some.inj found)
    exact ⟨_, .one isFirst, splits.symm⟩

/-- An expectation is read whole before the closing parenthesis. -/
theorem expectation?_of_isExpectation
    {written closing rest : Text}
    {expectation : Expectation}
    (isExpectation : IsExpectation written expectation)
    (blankClosing : Blanks closing) :
    expectation? (written ++ (closing ++ ')' :: rest)) =
      some (expectation, closing ++ ')' :: rest) := by
  have ends : Token.Stops Text.isNameRest (closing ++ ')' :: rest) :=
    notName_blanks_append blankClosing (by decide)
  cases isExpectation with
  | one isFirst =>
      simp [expectation?, integer?_of_integer isFirst ends, second?_of_blanks blankClosing]
  | @two first gap blanks second combinator isFirst blankGap narrow areBlanks isSecond =>
      have goesOn :
          Token.Stops Text.isNameRest
            (gap ++ combinator.symbol :: (blanks ++ (second ++ (closing ++ ')' :: rest)))) :=
        notName_blanks_append blankGap combinator.isNameRest_symbol
      simp [expectation?, integer?_of_integer isFirst goesOn,
        second?_of_isSecond combinator blankGap narrow areBlanks isSecond ends]

/-! ## The whole form -/

/-- The parts that are read are those of the form, and they are read whenever there are any. -/
theorem read?_eq_some_iff
    {text : Text}
    {parts : AssertionParts} :
    read? text = some parts ↔ IsAssertion text parts := by
  constructor
  · intro found
    simp only [read?, Option.bind_eq_bind, Option.bind_eq_some_iff, expect?_eq_some_iff] at found
    obtain ⟨inspected, rfl, afterInspect, inspectedShape, ⟨block, afterBlock⟩, blockFound,
      afterBracket, bracketShape, index, indexFound, compared, indexShape, expected,
      comparedShape, ⟨expectation, afterExpectation⟩, expectationFound, final, finalShape,
      ended⟩ := found
    obtain ⟨nothing, rfl⟩ : final = [] ∧ _ = parts := by
      simpa using ended
    obtain ⟨opening, blankOpening, openingShape⟩ := exists_blanks_skipBlanks inspected
    obtain ⟨before, blankBefore, beforeShape⟩ := exists_blanks_skipBlanks compared
    obtain ⟨after, blankAfter, afterShape⟩ := exists_blanks_skipBlanks expected
    obtain ⟨closing, blankClosing, closingShape⟩ := exists_blanks_skipBlanks afterExpectation
    obtain ⟨isIndex, splits⟩ := integer_of_integer? indexFound
    obtain ⟨written, isExpectation, expectationShape⟩ :=
      isExpectation_of_expectation? expectationFound
    -- The text of the form is put together, and then its parts are what was read, from the end on.
    have isAssertion : IsAssertion _ ⟨block, index.token, expectation⟩ :=
      .mk blankOpening isIndex blankBefore blankAfter isExpectation blankClosing
    rwa [← List.append_nil (Text.ofString ")"), ← nothing, ← finalShape, ← closingShape,
      ← expectationShape, ← afterShape, ← comparedShape, ← beforeShape, ← indexShape, splits,
      ← bracketShape, ← block?_eq_some_iff.mp blockFound, ← inspectedShape,
      ← openingShape] at isAssertion
  · rintro ⟨blankOpening, isIndex, blankBefore, blankAfter, isExpectation, blankClosing⟩
    have wording (wording : String) (rest : Text) :
        expect? wording (Text.ofString wording ++ rest) = some rest :=
      expect?_eq_some_iff.mpr rfl
    have named (block : Block) (rest : Text) :
        block? (block.name ++ rest) = some (block, rest) :=
      block?_eq_some_iff.mpr rfl
    have inspected (rest : Text) :
        Token.Stops Text.isBlank (Text.ofString "sim.inspect_mem(" ++ rest) :=
      stops_wording (c := 's') (by decide) (by decide) rest
    have bracketed (rest : Text) : Token.Stops Text.isNameRest (Text.ofString "]" ++ rest) :=
      stops_wording (c := ']') (by decide) (by decide) rest
    have compared (rest : Text) : Token.Stops Text.isBlank (Text.ofString "==" ++ rest) :=
      stops_wording (c := '=') (by decide) (by decide) rest
    have parenthesis : Text.ofString ")" = ')' :: [] := by
      decide
    have closed : skipBlanks (_ ++ [')']) = [')'] :=
      skipBlanks_append blankClosing (Token.stops_cons_iff.mpr (by decide))
    have last : expect? ")" [')'] = some [] := by
      rw [← parenthesis, ← List.append_nil (Text.ofString ")"), wording]
    rw [parenthesis]
    simp [read?, wording, named, skipBlanks_append blankOpening (inspected _),
      integer?_of_integer isIndex (bracketed _), skipBlanks_append blankBefore (compared _),
      skipBlanks_append blankAfter (notBlank_of_isExpectation isExpectation _),
      expectation?_of_isExpectation isExpectation blankClosing, closed, last]

end AssertionParts

end TinyMips
