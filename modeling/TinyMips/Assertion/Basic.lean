import TinyMips.Simulation.Snapshot

namespace TinyMips

/-!
# Assertions

An assertion names a register or a memory word and the value it should have. The
expected value may be written as a signed or an unsigned word, and may be two
integers under a bitwise operation; what is compared is always a word.
-/

/-- The part of the state an assertion looks at. -/
inductive Block where
  /-- The registers. -/
  | registers
  /-- The data memory. -/
  | memory
  deriving DecidableEq, Repr

/-- The name of a block in an assertion. -/
def Block.name : Block → Text
  | .registers => Text.ofString "rf"
  | .memory => Text.ofString "d_mem"

/-- A bitwise operation between two expected integers. -/
inductive Combinator where
  /-- Bitwise and. -/
  | and
  /-- Bitwise or. -/
  | or
  /-- Bitwise exclusive or. -/
  | xor
  deriving DecidableEq, Repr

namespace Combinator

/-- The character that stands for the operation. -/
def symbol : Combinator → Char
  | .and => '&'
  | .or => '|'
  | .xor => '^'

/-- The operation that a character stands for. -/
def ofSymbol? (c : Char) : Option Combinator :=
  [and, or, xor].find? fun combinator => combinator.symbol = c

/-- The operation on words of any width. -/
def onWords (combinator : Combinator) (first second : BitVec width) : BitVec width :=
  match combinator with
  | and => first &&& second
  | or => first ||| second
  | xor => first ^^^ second

/-- The operation on signed 64-bit integers in two's complement. -/
def apply (combinator : Combinator) (first second : Int) : Int :=
  (combinator.onWords (BitVec.ofInt 64 first) (BitVec.ofInt 64 second)).toInt

end Combinator

/-- An assertion whose text was understood. -/
structure Assertion where
  block : Block
  index : Int
  expected : Int
  /-- The assertion as written, without the mark before it. -/
  text : Text
  deriving DecidableEq, Repr

namespace Assertion

/-- The word that an assertion looks at. -/
def actual (assertion : Assertion) (snapshot : Snapshot) : Word :=
  match assertion.block with
  | .registers => snapshot.register assertion.index
  | .memory => snapshot.memoryWord assertion.index

/-- The assertion holds in a snapshot. -/
def holds (assertion : Assertion) (snapshot : Snapshot) : Bool :=
  assertion.actual snapshot = BitVec.ofInt 32 assertion.expected

end Assertion

/-- An assertion whose text was not understood. -/
structure MalformedAssertion where
  text : Text
  deriving DecidableEq, Repr

/-- The wording of the error. -/
def MalformedAssertion.message (error : MalformedAssertion) : String :=
  s!"malformed assertion `{error.text.asString}`"

end TinyMips
