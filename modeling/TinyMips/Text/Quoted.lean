import TinyMips.Text.Numeral
import TinyMips.Text.Printable

namespace TinyMips.Text

/-!
# Quoted text

A text between double quotes, in which quotes, backslashes and characters that
could not be seen are written as escapes.
-/

/-- A character inside a quoted text. -/
def quotedChar (c : Char) : Text :=
  if c = '\x00' then ['\\', '0']
  else if c = '\t' then ['\\', 't']
  else if c = '\r' then ['\\', 'r']
  else if c = '\n' then ['\\', 'n']
  else if c = '\\' || c = '"' then ['\\', c]
  else if isShown c then [c]
  else ['\\', 'u', '\x7b'] ++ Numeral.hex 1 c.toNat ++ ['\x7d']

/-- The text between double quotes. -/
def quoted (text : Text) : Text :=
  '"' :: text.flatMap quotedChar ++ ['"']

end TinyMips.Text
