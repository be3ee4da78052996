import TinyMips.Proofs.Assertion.Form
import TinyMips.Proofs.Grammar.Value

namespace TinyMips

/-!
# What assertions state

The integers of an assertion stand for an index and for what is expected there. Two
integers are taken together in 64 bits before it is asked whether a word can be written as
the result, so neither of them has to be one itself.
-/

/-- What an assertion expects: one integer, or two under an operation. -/
inductive Expected where
  | one (value : Int)
  | two (combinator : Combinator) (first second : Int)
  deriving DecidableEq, Repr

namespace Expected

/-- The expected integer; an operation is on signed 64-bit integers in two's complement. -/
def folded : Expected → Int
  | one value => value
  | two combinator first second => combinator.apply first second

/-- The expected integer is one that a word can be written as, signed or unsigned. -/
def IsWord (expected : Expected) : Prop :=
  -0x80000000 ≤ expected.folded ∧ expected.folded ≤ 0xFFFFFFFF

/-- The expected integer is a word exactly if the folded value is in range. -/
theorem isWord_folded_iff
    {expected : Expected} :
    Expectation.isWord expected.folded = true ↔ expected.IsWord := by
  simp [Expectation.isWord, IsWord]

end Expected

namespace Literal

/-- A literal denotes a value whose magnitude fits a signed 64-bit integer. -/
structure DenotesSmall (literal : Text) (value : Int) : Prop where
  denotes : Denotes literal value
  small : value.natAbs ≤ 0x7FFFFFFFFFFFFFFF

/-- The value of an integer of the language is the one it denotes. -/
theorem value?_eq_some_iff
    {literal : Text}
    {value : Int}
    (isImmediate : Grammar.Immediate literal) :
    value? literal = some value ↔ DenotesSmall literal value := by
  have bound (value : Int) : value.natAbs ≤ maximum ↔ value.natAbs ≤ 0x7FFFFFFFFFFFFFFF := by
    simp only [maximum]
    omega
  constructor
  · intro found
    obtain ⟨denoted, denotes⟩ := exists_denotes isImmediate
    rw [value?_of_denotes denotes, Option.ite_none_right_eq_some] at found
    obtain ⟨small, same⟩ := found
    obtain rfl := Option.some.inj same
    exact ⟨denotes, (bound denoted).mp small⟩
  · rintro ⟨denotes, small⟩
    rw [value?_of_denotes denotes, if_pos ((bound value).mpr small)]

/-- A literal denotes one small integer at most. -/
theorem DenotesSmall.unique
    {literal : Text}
    {value other : Int}
    (denotes : DenotesSmall literal value)
    (denotesOther : DenotesSmall literal other) :
    value = other := by
  have isImmediate := immediate_of_denotes denotes.denotes
  have found := (value?_eq_some_iff isImmediate).mpr denotes
  exact Option.some.inj (found.symm.trans ((value?_eq_some_iff isImmediate).mpr denotesOther))

end Literal

namespace Expectation

/-- The integers of an expectation stand for what is expected. -/
inductive Denotes : Expectation → Expected → Prop where
  | one
      {first : Text}
      {value : Int}
      (denotes : Literal.DenotesSmall first value) :
      Denotes ⟨first, none⟩ (.one value)
  | two
      {first second : Text}
      {combinator : Combinator}
      {firstValue secondValue : Int}
      (denotesFirst : Literal.DenotesSmall first firstValue)
      (denotesSecond : Literal.DenotesSmall second secondValue) :
      Denotes ⟨first, some (combinator, second)⟩ (.two combinator firstValue secondValue)

theorem Denotes.unique
    {expectation : Expectation}
    {expected other : Expected}
    (denotes : expectation.Denotes expected)
    (denotesOther : expectation.Denotes other) :
    expected = other := by
  cases denotes with
  | one denotes =>
      cases denotesOther with
      | one denotesOther => rw [denotes.unique denotesOther]
  | two denotesFirst denotesSecond =>
      cases denotesOther with
      | two otherFirst otherSecond =>
          rw [denotesFirst.unique otherFirst, denotesSecond.unique otherSecond]

/-- The expected integer that is found is what is expected, folded. -/
theorem value?_eq_some_iff
    {written : Text}
    {expectation : Expectation}
    {value : Int}
    (isExpectation : Grammar.IsExpectation written expectation) :
    expectation.value? = some value ↔
      ∃ expected, expectation.Denotes expected ∧ value = expected.folded := by
  cases isExpectation with
  | one isFirst =>
      simp only [value?, Option.bind_eq_bind, Option.bind_eq_some_iff, Option.pure_def,
        Option.some.injEq, exists_eq_right, Literal.value?_eq_some_iff isFirst.immediate]
      constructor
      · intro denotes
        exact ⟨_, .one denotes, rfl⟩
      · rintro ⟨_, ⟨denotes⟩, rfl⟩
        exact denotes
  | two isFirst _ _ _ isSecond =>
      simp only [value?, Option.bind_eq_bind, Option.bind_eq_some_iff, Option.pure_def,
        Option.some.injEq, Literal.value?_eq_some_iff isFirst.immediate,
        Literal.value?_eq_some_iff isSecond.immediate]
      constructor
      · rintro ⟨first, denotesFirst, second, denotesSecond, rfl⟩
        exact ⟨_, .two denotesFirst denotesSecond, rfl⟩
      · rintro ⟨_, denotes, rfl⟩
        cases denotes with
        | two denotesFirst denotesSecond => exact ⟨_, denotesFirst, _, denotesSecond, rfl⟩

end Expectation

open Grammar

/-- The assertion of parts that have the form is the one that they stand for. -/
theorem AssertionParts.assertion?_eq_some_iff
    {form text : Text}
    {parts : AssertionParts}
    {assertion : Assertion}
    (isAssertion : IsAssertion form parts) :
    parts.assertion? text = some assertion ↔
      ∃ index expected,
        Literal.DenotesSmall parts.index index ∧
          parts.expectation.Denotes expected ∧
            expected.IsWord ∧ ⟨parts.block, index, expected.folded, text⟩ = assertion := by
  obtain ⟨_, isExpectation⟩ := isAssertion.expectation
  simp only [assertion?, Option.bind_eq_bind, Option.bind_eq_some_iff,
    Literal.value?_eq_some_iff isAssertion.index.immediate,
    Expectation.value?_eq_some_iff isExpectation, Option.ite_none_right_eq_some,
    Option.some.injEq]
  constructor
  · rintro ⟨index, denotesIndex, _, ⟨expected, denotes, rfl⟩, isWord, same⟩
    exact ⟨index, expected, denotesIndex, denotes, Expected.isWord_folded_iff.mp isWord, same⟩
  · rintro ⟨index, expected, denotesIndex, denotes, isWord, same⟩
    exact ⟨index, denotesIndex, _, ⟨expected, denotes, rfl⟩,
      Expected.isWord_folded_iff.mpr isWord, same⟩

namespace Assertion

/--
A text states what is expected of a word: it has the form of an assertion on the block of the
word, and its integers stand for the index of the word and for what is expected.
-/
inductive States : Text → Block → Int → Expected → Prop where
  | mk
      {text : Text}
      {parts : AssertionParts}
      {index : Int}
      {expected : Expected}
      (isAssertion : IsAssertion text parts)
      (denotesIndex : Literal.DenotesSmall parts.index index)
      (denotes : parts.expectation.Denotes expected) :
      States text parts.block index expected

/-- A text states one thing at most. -/
theorem States.unique
    {text : Text}
    {block otherBlock : Block}
    {index otherIndex : Int}
    {expected otherExpected : Expected}
    (states : States text block index expected)
    (statesOther : States text otherBlock otherIndex otherExpected) :
    block = otherBlock ∧ index = otherIndex ∧ expected = otherExpected := by
  obtain ⟨isAssertion, denotesIndex, denotes⟩ := states
  obtain ⟨isOther, denotesOther, otherDenotes⟩ := statesOther
  have found := AssertionParts.read?_eq_some_iff.mpr isAssertion
  obtain rfl := Option.some.inj (found.symm.trans (AssertionParts.read?_eq_some_iff.mpr isOther))
  exact ⟨rfl, denotesIndex.unique denotesOther, denotes.unique otherDenotes⟩

/-- A text holds an assertion exactly if it states one whose expected integer is a word. -/
theorem ofText?_eq_some_iff
    {text : Text}
    {assertion : Assertion} :
    ofText? text = some assertion ↔
      ∃ block index expected,
        States text block index expected ∧
          expected.IsWord ∧ ⟨block, index, expected.folded, text⟩ = assertion := by
  simp only [ofText?, Option.bind_eq_bind, Option.bind_eq_some_iff,
    AssertionParts.read?_eq_some_iff]
  constructor
  · rintro ⟨parts, isAssertion, found⟩
    obtain ⟨index, expected, denotesIndex, denotes, isWord, same⟩ :=
      (AssertionParts.assertion?_eq_some_iff isAssertion).mp found
    exact ⟨_, index, expected, .mk isAssertion denotesIndex denotes, isWord, same⟩
  · rintro ⟨_, index, expected, ⟨isAssertion, denotesIndex, denotes⟩, isWord, same⟩
    refine ⟨_, isAssertion, (AssertionParts.assertion?_eq_some_iff isAssertion).mpr ?_⟩
    exact ⟨index, expected, denotesIndex, denotes, isWord, same⟩

/-- What is left of a line without the white space around it and then without one mark. -/
def body (line : Text) : Text :=
  Text.dropMark '#' line.trim

/-- A line is understood exactly if its body is. -/
theorem read_eq_ok_iff
    {line : Text}
    {assertion : Assertion} :
    read line = .ok assertion ↔ ofText? (body line) = some assertion := by
  rw [read, body]
  cases ofText? (Text.dropMark '#' line.trim) <;> simp

/-- A line that is not understood is reported by its body. -/
theorem read_eq_error_iff
    {line : Text}
    {error : MalformedAssertion} :
    read line = .error error ↔ ofText? (body line) = none ∧ error = ⟨body line⟩ := by
  rw [read, body]
  cases ofText? (Text.dropMark '#' line.trim) <;> simp [eq_comm]

/-- The text of an assertion that was read states what the assertion holds. -/
theorem states_of_read
    {line : Text}
    {assertion : Assertion}
    (found : read line = .ok assertion) :
    ∃ expected,
      States assertion.text assertion.block assertion.index expected ∧
        expected.IsWord ∧ assertion.expected = expected.folded := by
  obtain ⟨_, _, expected, states, isWord, rfl⟩ := ofText?_eq_some_iff.mp (read_eq_ok_iff.mp found)
  exact ⟨expected, states, isWord, rfl⟩

/-- The text of an assertion has neither white space nor a mark that would be left out. -/
theorem body_of_states
    {text : Text}
    {block : Block}
    {index : Int}
    {expected : Expected}
    (states : States text block index expected) :
    body text = text := by
  obtain ⟨isAssertion, _, _⟩ := states
  obtain ⟨first, last⟩ := isAssertion.ends
  have trimmed : text.trim = text := by
    apply Text.trim_of_ends
    · intro c isFirst
      obtain rfl : 'a' = c := Option.some.inj (first.symm.trans isFirst)
      decide
    · intro c isLast
      obtain rfl : ')' = c := Option.some.inj (last.symm.trans isLast)
      decide
  obtain ⟨rest, rfl⟩ := List.head?_eq_some_iff.mp first
  rw [body, trimmed]
  rfl

/--
A line holds an assertion exactly if its body has the form of one and a word can be written
as the integer it expects. The assertion has the block, the index and the expected integer
that the body states, and the body as its text, and from its text it is read again. Otherwise
the body is reported.
-/
theorem reads_exactly_what_is_stated
    (line : Text) :
    (∀ assertion,
      read line = .ok assertion ↔
        ∃ block index expected,
          States (body line) block index expected ∧
            expected.IsWord ∧ assertion = ⟨block, index, expected.folded, body line⟩) ∧
      ((∃ assertion, read line = .ok assertion) ↔
        ∃ block index expected, States (body line) block index expected ∧ expected.IsWord) ∧
      (∀ error,
        read line = .error error ↔
          (¬ ∃ block index expected, States (body line) block index expected ∧ expected.IsWord) ∧
            error = ⟨body line⟩) ∧
      ∀ assertion, read line = .ok assertion → read assertion.text = .ok assertion := by
  have success (assertion : Assertion) :
      read line = .ok assertion ↔
        ∃ block index expected,
          States (body line) block index expected ∧
            expected.IsWord ∧ ⟨block, index, expected.folded, body line⟩ = assertion :=
    read_eq_ok_iff.trans ofText?_eq_some_iff
  refine ⟨by simpa [eq_comm] using success, ?_, fun error => ?_, fun assertion found => ?_⟩
  · simp only [success]
    constructor
    · rintro ⟨_, block, index, expected, states, isWord, rfl⟩
      exact ⟨block, index, expected, states, isWord⟩
    · rintro ⟨block, index, expected, states, isWord⟩
      exact ⟨_, block, index, expected, states, isWord, rfl⟩
  · rw [read_eq_error_iff, Option.eq_none_iff_forall_ne_some]
    refine and_congr_left fun _ => ?_
    constructor
    · rintro nothing ⟨block, index, expected, states, isWord⟩
      exact nothing _ (ofText?_eq_some_iff.mpr ⟨block, index, expected, states, isWord, rfl⟩)
    · intro nothing assertion found
      obtain ⟨block, index, expected, states, isWord, _⟩ := ofText?_eq_some_iff.mp found
      exact nothing ⟨block, index, expected, states, isWord⟩
  · have written := read_eq_ok_iff.mp found
    obtain ⟨_, _, _, states, _, rfl⟩ := ofText?_eq_some_iff.mp written
    exact read_eq_ok_iff.mpr (by rwa [body_of_states states])

/-- Operands need not be words, but two blanks before the operation are too many. -/
example :
    read (Text.ofString " #assert( sim.inspect_mem(d_mem)[-0x1]\t==4294967296 ^\t0X100000001)") =
        .ok ⟨.memory, -1, 1,
          Text.ofString "assert( sim.inspect_mem(d_mem)[-0x1]\t==4294967296 ^\t0X100000001)"⟩ ∧
      read (Text.ofString "assert(sim.inspect_mem(rf)[8] == 1 \t& 1)") =
        .error ⟨Text.ofString "assert(sim.inspect_mem(rf)[8] == 1 \t& 1)"⟩ := by
  decide +kernel

end Assertion

end TinyMips
