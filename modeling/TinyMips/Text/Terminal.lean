import TinyMips.Text.Numeral

namespace TinyMips.Text

/-!
# Text that a terminal shows as text

A terminal takes some control characters as commands: the one that begins an
escape sequence, the bell, the backspace, the form feed, the delete character,
and the C1 controls from U+0080 to U+009F. A text from outside could so change
what a reader of the terminal sees. Here these characters are written as escapes
and all others, line ends and tabs among them, stay as they are.
-/

/-- A control character of ASCII that a terminal takes as a command. -/
def isTerminalCommand (c : Char) : Bool :=
  c = '\x1b' || c = '\x07' || c = '\x08' || c = '\x0c' || c = '\x7f'

/-- One of the C1 controls. -/
def isHighControl (c : Char) : Bool :=
  0x80 ≤ c.toNat && c.toNat ≤ 0x9F

/-- A character as a terminal should get it. -/
def terminalChar (c : Char) : Text :=
  if isTerminalCommand c then ['\\', 'x'] ++ Numeral.hex 2 c.toNat
  else if isHighControl c then ['\\', 'u', '\x7b'] ++ Numeral.hex 2 c.toNat ++ ['\x7d']
  else [c]

/-- The text without commands to a terminal. -/
def forTerminal (text : Text) : Text :=
  text.flatMap terminalChar

end TinyMips.Text
