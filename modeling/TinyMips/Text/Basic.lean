namespace TinyMips

/-!
# Text

Everything the assembler reads or prints is a list of characters. This module
holds the character classes of the source language, which are ASCII classes,
and the trimming of blank space, which follows the Unicode property
`White_Space`.
-/

/-- Text as the list of its characters. -/
abbrev Text := List Char

namespace Text

/-- The text packed into a string. -/
def asString (text : Text) : String :=
  String.ofList text

/-- The characters of a string. -/
def ofString (text : String) : Text :=
  text.toList

/-- A space or a tab, the only blanks of the source language. -/
def isBlank (c : Char) : Bool :=
  c = ' ' || c = '\t'

/-- A digit of base sixteen, in either case. -/
def isHexDigit (c : Char) : Bool :=
  c.isDigit || ('a' ≤ c && c ≤ 'f') || ('A' ≤ c && c ≤ 'F')

/-- A character a name may begin with. -/
def isNameStart (c : Char) : Bool :=
  c.isAlpha || c = '_'

/-- A character a name may go on with. -/
def isNameRest (c : Char) : Bool :=
  c.isAlphanum || c = '_' || c = '.'

/-- The code points with the Unicode property `White_Space`, as closed ranges. -/
def whiteSpace : List (Nat × Nat) :=
  [(0x9, 0xD), (0x20, 0x20), (0x85, 0x85), (0xA0, 0xA0), (0x1680, 0x1680), (0x2000, 0x200A),
    (0x2028, 0x2029), (0x202F, 0x202F), (0x205F, 0x205F), (0x3000, 0x3000)]

/-- A character with the Unicode property `White_Space`. -/
def isWhiteSpace (c : Char) : Bool :=
  whiteSpace.any fun (first, last) => first ≤ c.toNat && c.toNat ≤ last

/-- The text without the white space at its end. -/
def trimEnd (text : Text) : Text :=
  (text.reverse.dropWhile isWhiteSpace).reverse

/-- The text without the white space at either end. -/
def trim (text : Text) : Text :=
  trimEnd (text.dropWhile isWhiteSpace)

/-- The text in lower case; only ASCII letters have a case here. -/
def lowercase (text : Text) : Text :=
  text.map Char.toLower

/-- What follows `start` in a text that begins with it. -/
def dropPrefix? : Text → Text → Option Text
  | [], text => some text
  | _ :: _, [] => none
  | expected :: start, c :: text => if c = expected then dropPrefix? start text else none

/-- What precedes `final` in a text that ends with it. -/
def dropSuffix? (final text : Text) : Option Text :=
  (dropPrefix? final.reverse text.reverse).map List.reverse

/-- The text without one leading `mark`, if it has one. -/
def dropMark (mark : Char) : Text → Text
  | [] => []
  | c :: text => if c = mark then text else c :: text

/-- The text with spaces added on the right up to the given width. -/
def padRight (width : Nat) (text : Text) : Text :=
  text.rightpad width ' '

/-- The text with spaces added on the left up to the given width. -/
def padLeft (width : Nat) (text : Text) : Text :=
  text.leftpad width ' '

end Text

end TinyMips
