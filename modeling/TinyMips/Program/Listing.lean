import TinyMips.Program.Basic
import TinyMips.Text.Line

namespace TinyMips

/-!
# Machine-code listings

A listing holds one hexadecimal word a row. Reading skips blank rows and rows
that begin with `#`, and takes a `0x` in front of a word.
-/

/-- The reason a listing holds no program. -/
inductive ListingError where
  /-- A row is not a 32-bit hexadecimal word. -/
  | badWord (row : Nat) (text : Text)
  /-- A word stands for no instruction. -/
  | illegal (index : Nat) (word : Word)
  /-- There are no words. -/
  | empty
  deriving DecidableEq, Repr

/-- The wording of a listing error. -/
def ListingError.message : ListingError → String
  | badWord row text => s!"line {row}: bad hex word `{text.asString}`"
  | illegal index word => s!"instruction {index}: {illegalInstructionMessage word}"
  | empty => "listing contains no instructions"

namespace Listing

/-- The hexadecimal word a trimmed row holds, if it holds one. -/
def word? (row : Text) : Option Word :=
  let digits := (Numeral.hexBody? row).getD row
  if Numeral.isHexadecimal digits then
    let value := Numeral.value 16 digits
    if value < 0x100000000 then some (BitVec.ofNat 32 value) else none
  else
    none

/-- A trimmed row says something. -/
def isMeaningful (row : Text) : Bool :=
  match row with
  | [] => false
  | c :: _ => c ≠ '#'

/-- The meaningful rows of a listing, trimmed and with their numbers. -/
def meaningfulRows (text : Text) : List (Text × Nat) :=
  ((text.rows.map Text.trim).zipIdx 1).filter fun (row, _) => isMeaningful row

/-- The word of a numbered row, or the error of that row. -/
def readRow (numbered : Text × Nat) : Except ListingError Word :=
  match word? numbered.1 with
  | some word => .ok word
  | none => .error (.badWord numbered.2 numbered.1)

/-- The words of a listing, or the error of the first bad row. -/
def read (text : Text) : Except ListingError (List Word) := do
  let words ← (meaningfulRows text).mapM readRow
  if words.isEmpty then .error .empty else .ok words

end Listing

namespace Program

/-- The instruction of an indexed word, or the error that there is none. -/
def decodeAt (indexed : Word × Nat) : Except ListingError Instruction :=
  match Instruction.decode? indexed.1 with
  | some instruction => .ok instruction
  | none => .error (.illegal indexed.2 indexed.1)

/-- The program that a nonempty list of words stands for. -/
def ofWords (words : List Word) : Except ListingError Program := do
  if words.isEmpty then .error .empty
  let instructions ← words.zipIdx.mapM decodeAt
  return ofInstructions instructions

/-- The program that a listing holds. -/
def ofListing (text : Text) : Except ListingError Program := do
  ofWords (← Listing.read text)

/-- The listing of a program: eight digits a row. -/
def listing (program : Program) : Text :=
  program.words.flatMap fun word => word.hex8 ++ ['\n']

end Program

end TinyMips
