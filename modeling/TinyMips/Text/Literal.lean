import TinyMips.Text.Numeral

namespace TinyMips

/-!
# Integer literals

A literal is an optional sign and a decimal or `0x` hexadecimal number. Its
magnitude must fit a signed 64-bit integer, so the least 64-bit integer, whose
magnitude does not, has no literal. `Literal.value?` also gives a value to texts
the grammar never produces, with a second sign after the first one or after
`0x`: an operand built without the grammar can hold them.
-/

namespace Literal

/-- The greatest signed 64-bit integer. -/
def maximum : Int := 0x7FFFFFFFFFFFFFFF

/-- The least signed 64-bit integer. -/
def minimum : Int := -0x8000000000000000

/-- An integer, unless it lies outside the signed 64-bit range. -/
def inRange? (value : Int) : Option Int :=
  if minimum ≤ value && value ≤ maximum then some value else none

/-- The 64-bit value of digits in a base that may follow one sign. -/
def signedDigits? (base : Nat) (isDigit : Char → Bool) (text : Text) : Option Int :=
  let (negative, digits) :=
    match text with
    | '-' :: digits => (true, digits)
    | '+' :: digits => (false, digits)
    | digits => (false, digits)
  if digits.isEmpty || !digits.all isDigit then
    none
  else
    let magnitude := Numeral.value base digits
    inRange? (if negative then -magnitude else magnitude)

/-- The 64-bit value of a text without its leading sign. -/
def magnitude? (text : Text) : Option Int :=
  match Numeral.hexBody? text with
  | some digits => signedDigits? 16 Text.isHexDigit digits
  | none => signedDigits? 10 Char.isDigit text

/--
The value of an integer literal, if its magnitude fits a signed 64-bit integer.

The leading minus sign negates in two's complement, which differs from the
negation of integers only at the least 64-bit integer; no literal of the grammar
has that magnitude.
-/
def value? (text : Text) : Option Int :=
  match text with
  | '-' :: body => (magnitude? body).map fun magnitude => (-magnitude).bmod 0x10000000000000000
  | '+' :: body => magnitude? body
  | body => magnitude? body

end Literal

end TinyMips
