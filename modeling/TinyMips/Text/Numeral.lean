import TinyMips.Text.Basic

namespace TinyMips.Numeral

/-!
# Numerals

Natural numbers in base ten and base sixteen: the value of a run of digits, and
the digits of a value. Leading zeros are read and change nothing; none are
written unless a width asks for them.
-/

/-- The value of a digit, with letters for ten and above; anything else counts as zero. -/
def digitValue (c : Char) : Nat :=
  if c.isDigit then c.toNat - '0'.toNat
  else if 'a' ≤ c && c ≤ 'f' then c.toNat - 'a'.toNat + 10
  else if 'A' ≤ c && c ≤ 'F' then c.toNat - 'A'.toNat + 10
  else 0

/-- The value of a run of digits, the most significant one first. -/
def value (base : Nat) (digits : Text) : Nat :=
  digits.foldl (fun total c => total * base + digitValue c) 0

/-- A run of one or more decimal digits. -/
def isDecimal (text : Text) : Bool :=
  !text.isEmpty && text.all Char.isDigit

/-- A run of one or more hexadecimal digits. -/
def isHexadecimal (text : Text) : Bool :=
  !text.isEmpty && text.all Text.isHexDigit

/-- What follows a leading `0x` or `0X`, if there is one. -/
def hexBody? : Text → Option Text
  | '0' :: 'x' :: digits => some digits
  | '0' :: 'X' :: digits => some digits
  | _ => none

/-- A natural number in base ten. -/
def decimal (n : Nat) : Text :=
  Nat.toDigits 10 n

/-- An integer in base ten, with a minus sign when it is negative. -/
def signedDecimal : Int → Text
  | .ofNat n => decimal n
  | .negSucc n => '-' :: decimal (n + 1)

/-- A natural number in lower-case base sixteen, with zeros in front up to a width. -/
def hex (width n : Nat) : Text :=
  (Nat.toDigits 16 n).leftpad width '0'

/-- A natural number as `0x` and its hexadecimal digits, with zeros up to a width of digits. -/
def prefixedHex (width n : Nat) : Text :=
  '0' :: 'x' :: hex width n

end TinyMips.Numeral
