import TinyMips.Text.Basic

namespace TinyMips.Json

/-!
# JSON faults

The ways in which a text can fail to be JSON, and where they are noticed. Places
count lines from one and the bytes of a line from the end of the one before.
-/

/-- A way in which a text fails to be JSON. -/
inductive Fault where
  /-- The text ends inside an array. -/
  | endInArray
  /-- The text ends inside an object. -/
  | endInObject
  /-- The text ends inside a string. -/
  | endInString
  /-- The text ends before a value. -/
  | endInValue
  /-- A key without a colon. -/
  | missingColon
  /-- An element without a comma or a bracket after it. -/
  | missingArrayComma
  /-- A member without a comma or a brace after it. -/
  | missingObjectComma
  /-- A word other than `null`, `true` and `false`. -/
  | unknownWord
  /-- Something that begins no value. -/
  | missingValue
  /-- An escape that does not exist. -/
  | badEscape
  /-- A number in no proper form. -/
  | badNumber
  /-- A number too large for a double. -/
  | numberTooLarge
  /-- A control character inside a string. -/
  | controlCharacter
  /-- A key that is not a string. -/
  | keyNotString
  /-- Half of a surrogate pair on its own. -/
  | loneSurrogate
  /-- A comma before a bracket or brace. -/
  | trailingComma
  /-- Text after the end of a value. -/
  | trailingText
  /-- The first half of a surrogate pair without an escape after it. -/
  | missingSurrogate
  deriving DecidableEq, Repr

/-- The wording of a fault. -/
def Fault.message : Fault → String
  | endInArray => "EOF while parsing a list"
  | endInObject => "EOF while parsing an object"
  | endInString => "EOF while parsing a string"
  | endInValue => "EOF while parsing a value"
  | missingColon => "expected `:`"
  | missingArrayComma => "expected `,` or `]`"
  | missingObjectComma => "expected `,` or `\x7d`"
  | unknownWord => "expected ident"
  | missingValue => "expected value"
  | badEscape => "invalid escape"
  | badNumber => "invalid number"
  | numberTooLarge => "number out of range"
  | controlCharacter =>
      "control character (\\u0000-\\u001F) found while parsing a string"
  | keyNotString => "key must be a string"
  | loneSurrogate => "lone leading surrogate in hex escape"
  | trailingComma => "trailing comma"
  | trailingText => "trailing characters"
  | missingSurrogate => "unexpected end of hex escape"

/-- A place in a text. -/
structure Place where
  line : Nat
  column : Nat
  deriving DecidableEq, Repr

/-- A place as a message ends with it. -/
def Place.text (place : Place) : String :=
  s!"at line {place.line} column {place.column}"

end TinyMips.Json
