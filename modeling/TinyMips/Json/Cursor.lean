import TinyMips.Json.Fault
import TinyMips.Text.Numeral

namespace TinyMips.Json

/-!
# Reading JSON from left to right

A reader takes characters from the front of a text and stops at the first error,
which may be a fault of the text or one that the caller finds in what it says.
Every error has a place: right where the reader stands, or past the next byte if
that byte is what is wrong.
-/

/-- What is left to read, and the place where it begins. -/
structure Cursor where
  rest : Text
  place : Place
  deriving DecidableEq, Repr

/-- An error with its place. -/
structure Located (ε : Type) where
  error : ε
  place : Place
  deriving DecidableEq, Repr

/-- A reader whose caller can find errors of a type of its own. -/
abbrev Reader (ε : Type) := StateT Cursor (Except (Located (Fault ⊕ ε)))

namespace Cursor

/-- A text from its beginning. -/
def ofText (text : Text) : Cursor := ⟨text, ⟨1, 0⟩⟩

/-- The place after a character. -/
def placeAfter (place : Place) (c : Char) : Place :=
  if c = '\n' then ⟨place.line + 1, 0⟩ else ⟨place.line, place.column + c.utf8Size⟩

/-- The place after a number of bytes, or at the end if there are fewer. -/
def placeAfterBytes (place : Place) : Nat → Text → Place
  | 0, _ => place
  | _ + 1, [] => place
  | count + 1, c :: text =>
      if c.utf8Size ≤ count + 1 then
        placeAfterBytes (placeAfter place c) (count + 1 - c.utf8Size) text
      else
        ⟨place.line, place.column + (count + 1)⟩
  termination_by _ text => text.length

/-- Place of the end of the text. -/
def endPlace (cursor : Cursor) : Place :=
  cursor.rest.foldl placeAfter cursor.place

/-- White space of the format. -/
def isSpace (c : Char) : Bool :=
  c = ' ' || c = '\n' || c = '\t' || c = '\r'

/-- The cursor past a run of characters of a class. -/
def skipWhile (inClass : Char → Bool) (cursor : Cursor) : Cursor :=
  ⟨cursor.rest.dropWhile inClass, (cursor.rest.takeWhile inClass).foldl placeAfter cursor.place⟩

end Cursor

namespace Reader

variable {ε α : Type}

/-- Stop with an error at a place. -/
def failAt (place : Place) (error : Fault ⊕ ε) : Reader ε α :=
  throw ⟨error, place⟩

/-- Stop with a fault right here. -/
def failHere (fault : Fault) : Reader ε α := do
  failAt (← get).place (.inl fault)

/-- Stop with a fault past the next byte, if there is one. -/
def failPast (fault : Fault) : Reader ε α := do
  let cursor ← get
  failAt (Cursor.placeAfterBytes cursor.place 1 cursor.rest) (.inl fault)

/-- Stop with an error of the caller right here. -/
def reject (error : ε) : Reader ε α := do
  failAt (← get).place (.inr error)

/-- The next character, which stays where it is. -/
def peek? : Reader ε (Option Char) := do
  return (← get).rest.head?

/-- Take the next character, if there is one. -/
def advance : Reader ε Unit :=
  modify fun cursor =>
    match cursor.rest with
    | [] => cursor
    | c :: rest => ⟨rest, Cursor.placeAfter cursor.place c⟩

/-- Take the white space that comes next. -/
def skipSpace : Reader ε Unit :=
  modify (Cursor.skipWhile Cursor.isSpace)

/-- Take the white space that comes next and look at what follows. -/
def peekToken? : Reader ε (Option Char) := do
  skipSpace
  peek?

/-- Take the run of characters of a class that comes next. -/
def run (inClass : Char → Bool) : Reader ε Text := do
  let taken := (← get).rest.takeWhile inClass
  modify (Cursor.skipWhile inClass)
  return taken

/-- Take the rest of a word whose first character was taken. -/
def word : Text → Reader ε Unit
  | [] => return
  | expected :: rest => do
      match ← peek? with
      | none => failHere .endInValue
      | some c =>
          if c = expected then
            advance
            word rest
          else
            failPast .unknownWord

end Reader

end TinyMips.Json
