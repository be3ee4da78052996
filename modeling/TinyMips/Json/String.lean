import TinyMips.Json.Cursor

namespace TinyMips.Json.Reader

/-!
# JSON strings

The characters of a string, with its escapes replaced. Escapes of surrogates are
allowed only in pairs.
-/

variable {ε : Type}

/-- The number that four hexadecimal digits stand for. -/
def fourDigits : Reader ε Nat := do
  let cursor ← get
  let bytes := (cursor.rest.take 4).foldl (fun total c => total + c.utf8Size) 0
  if bytes < 4 then
    failAt cursor.endPlace (.inl .endInString)
  else
    let digits := cursor.rest.take 4
    let place := Cursor.placeAfterBytes cursor.place 4 cursor.rest
    if digits.all Text.isHexDigit then
      set ({ rest := cursor.rest.drop 4, place } : Cursor)
      return Numeral.value 16 digits
    else
      failAt place (.inl .badEscape)

/-- Take a character that has to come next. -/
def surrogateMark (expected : Char) : Reader ε Unit := do
  match ← peek? with
  | none => failHere .endInString
  | some c => if c = expected then advance else failPast .missingSurrogate

/-- The character of an escape by number. -/
def numberedEscape : Reader ε Char := do
  let first ← fourDigits
  if 0xDC00 ≤ first && first ≤ 0xDFFF then
    failHere .loneSurrogate
  else if 0xD800 ≤ first && first ≤ 0xDBFF then
    surrogateMark '\\'
    surrogateMark 'u'
    let second ← fourDigits
    if 0xDC00 ≤ second && second ≤ 0xDFFF then
      return Char.ofNat ((first - 0xD800) * 0x400 + (second - 0xDC00) + 0x10000)
    else
      failHere .loneSurrogate
  else
    return Char.ofNat first

/-- The character of an escape whose backslash was taken. -/
def escape : Reader ε Char := do
  match ← peek? with
  | none => failHere .endInString
  | some 'u' =>
      advance
      numberedEscape
  | some c =>
      match [('"', '"'), ('\\', '\\'), ('/', '/'), ('b', '\x08'), ('f', '\x0c'), ('n', '\n'),
        ('r', '\r'), ('t', '\t')].lookup c with
      | some meant =>
          advance
          return meant
      | none => failPast .badEscape

/-- The rest of a string, with at most `left` characters before its end. -/
def stringRest (earlier : Text) : Nat → Reader ε Text
  | 0 => failHere .endInString
  | left + 1 => do
      match ← peek? with
      | none => failHere .endInString
      | some '"' =>
          advance
          return earlier.reverse
      | some '\\' =>
          advance
          let c ← escape
          stringRest (c :: earlier) left
      | some c =>
          if c.toNat < 0x20 then
            failPast .controlCharacter
          else
            advance
            stringRest (c :: earlier) left

/-- The string that begins with the quote that comes next. -/
def string : Reader ε Text := do
  advance
  let length := (← get).rest.length
  stringRest [] (length + 1)

end TinyMips.Json.Reader
