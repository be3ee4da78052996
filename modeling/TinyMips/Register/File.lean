import TinyMips.Register.Basic

namespace TinyMips

/-!
# The register file

Thirty-two words. The cell of register zero is never written, so it holds zero
for as long as the file came from `RegisterFile.cleared` by `RegisterFile.write`.
-/

/-- The values of the thirty-two registers. -/
structure RegisterFile where
  cells : Vector Word 32
  deriving DecidableEq, Repr

namespace RegisterFile

/-- The register file with every register zero. -/
def cleared : RegisterFile :=
  ⟨Vector.replicate 32 0⟩

/-- The value of a register; register zero reads zero whatever its cell holds. -/
def read (file : RegisterFile) (reg : Reg) : Word :=
  if reg.isZero then 0 else file.cells.get ⟨reg.index, reg.index_lt⟩

/-- The file after a write to a register; a write to register zero changes nothing. -/
def write (file : RegisterFile) (reg : Reg) (value : Word) : RegisterFile :=
  if reg.isZero then file else ⟨file.cells.set reg.index value reg.index_lt⟩

/-- The values of all registers, in the order of their numbers. -/
def toList (file : RegisterFile) : List Word :=
  file.cells.toList

/-- One register of the printed table: its name, padded, and its value. -/
def entryText (file : RegisterFile) (reg : Reg) : Text :=
  '$' :: Text.padRight 4 reg.name ++ '=' :: (file.read reg).address ++ [' ', ' ']

/-- Lists of four consecutive elements. -/
def inFours : List Reg → List (List Reg)
  | a :: b :: c :: d :: rest => [a, b, c, d] :: inFours rest
  | _ => []

/-- The printed table: four registers a row, without blanks at the end of a row. -/
def table (file : RegisterFile) : Text :=
  (inFours Reg.all).flatMap fun row =>
    Text.trimEnd (row.flatMap file.entryText) ++ ['\n']

end RegisterFile

end TinyMips
