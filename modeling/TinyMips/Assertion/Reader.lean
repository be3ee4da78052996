import TinyMips.Assertion.Basic
import TinyMips.Source.Token
import TinyMips.Text.Line
import TinyMips.Text.Literal

namespace TinyMips

/-!
# Reading assertions

An assertion is a comment of the form
`#assert(sim.inspect_mem(rf)[index] == value)`, where the block may also be
`d_mem` and `&`, `|` or `^` and a second value may follow the first. Blanks may
stand before the inspected block, around `==`, after the operation and before the
last parenthesis; before the operation there may be one blank at most.
-/

/-- What an assertion expects: one integer, or two under an operation. -/
structure Expectation where
  first : Text
  second? : Option (Combinator × Text)
  deriving DecidableEq, Repr

namespace Expectation

/-- The expected integer, if its literals are not too large. -/
def value? (expectation : Expectation) : Option Int := do
  let first ← Literal.value? expectation.first
  match expectation.second? with
  | none => return first
  | some (combinator, second) => return combinator.apply first (← Literal.value? second)

/-- An expected integer is one that a word can be written as, signed or unsigned. -/
def isWord (value : Int) : Bool :=
  -0x80000000 ≤ value && value ≤ 0xFFFFFFFF

end Expectation

/-- The parts of the text of an assertion. -/
structure AssertionParts where
  block : Block
  index : Text
  expectation : Expectation
  deriving DecidableEq, Repr

namespace AssertionParts

/-- The text after its blanks. -/
def skipBlanks (text : Text) : Text :=
  text.dropWhile Text.isBlank

/-- The text after one blank, if it begins with one. -/
def skipOneBlank : Text → Text
  | [] => []
  | c :: text => if Text.isBlank c then text else c :: text

/-- The text after fixed wording. -/
def expect? (wording : String) (text : Text) : Option Text :=
  Text.dropPrefix? (Text.ofString wording) text

/-- The digits of an integer: hexadecimal after `0x` if there are any, else decimal. -/
def digits? (text : Text) : Option Token.Cut :=
  match (Numeral.hexBody? text).bind (Token.someRun? Text.isHexDigit) with
  | some cut => some { cut with token := text.take 2 ++ cut.token }
  | none => Token.someRun? Char.isDigit text

/-- An integer with an optional minus sign. -/
def integer? (text : Text) : Option Token.Cut :=
  match text with
  | '-' :: body => (digits? body).map fun cut => { cut with token := '-' :: cut.token }
  | body => digits? body

/-- The name of a block. -/
def block? (text : Text) : Option (Block × Text) :=
  match Text.dropPrefix? Block.registers.name text with
  | some rest => some (.registers, rest)
  | none => (Text.dropPrefix? Block.memory.name text).map fun rest => (.memory, rest)

/-- An operation and the integer after it. -/
def second? (text : Text) : Option ((Combinator × Text) × Text) :=
  match skipOneBlank text with
  | [] => none
  | c :: rest => do
      let combinator ← Combinator.ofSymbol? c
      let cut ← integer? (skipBlanks rest)
      return ((combinator, cut.token), cut.rest)

/-- The text after an expected integer: an operation, if there is one, and the end. -/
def expectation? (text : Text) : Option (Expectation × Text) := do
  let first ← integer? text
  match second? first.rest with
  | some (second, rest) => return (⟨first.token, some second⟩, rest)
  | none => return (⟨first.token, none⟩, first.rest)

/-- The parts of the text of an assertion, if it follows the form. -/
def read? (text : Text) : Option AssertionParts := do
  let text ← expect? "assert(" text
  let text ← expect? "sim.inspect_mem(" (skipBlanks text)
  let (block, text) ← block? text
  let text ← expect? ")[" text
  let index ← integer? text
  let text ← expect? "]" index.rest
  let text ← expect? "==" (skipBlanks text)
  let (expectation, text) ← expectation? (skipBlanks text)
  let text ← expect? ")" (skipBlanks text)
  if text.isEmpty then some ⟨block, index.token, expectation⟩ else none

/-- The assertion of given parts and text, if its integers are in range. -/
def assertion? (parts : AssertionParts) (text : Text) : Option Assertion := do
  let index ← Literal.value? parts.index
  let expected ← parts.expectation.value?
  if Expectation.isWord expected then some ⟨parts.block, index, expected, text⟩ else none

end AssertionParts

namespace Assertion

/-- The assertion that a text holds, if it holds one. -/
def ofText? (text : Text) : Option Assertion := do
  (← AssertionParts.read? text).assertion? text

/-- The assertion on a line; white space around it and one mark before it do not matter. -/
def read (line : Text) : Except MalformedAssertion Assertion :=
  let text := Text.dropMark '#' (Text.trim line)
  match ofText? text with
  | some assertion => .ok assertion
  | none => .error ⟨text⟩

/-- A trimmed line is meant as an assertion. -/
def isMarked (line : Text) : Bool :=
  (Text.dropPrefix? (Text.ofString "#assert(") line).isSome

/-- The assertions of a source text, in order, with those that were not understood. -/
def collect (source : Text) : List (Except MalformedAssertion Assertion) :=
  ((source.rows.map Text.trim).filter isMarked).map read

end Assertion

end TinyMips
