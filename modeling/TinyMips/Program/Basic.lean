import TinyMips.Instruction.Printer
import TinyMips.Program.Symbols

namespace TinyMips

/-!
# Programs

A program is a sequence of instructions; the instruction with index `i` lies at
byte address `4 * i`. Labels and source lines come along for diagnostics.
-/

/-- Where an instruction was written: a line, counted from one, and its text. -/
structure SourceLine where
  line : Nat
  text : Text
  deriving DecidableEq, Repr

/-- A program with its labels and source lines. -/
structure Program where
  instructions : Array Instruction
  symbols : SymbolTable
  lines : Array SourceLine
  deriving DecidableEq, Repr

namespace Program

/-- The number of instructions. -/
def size (program : Program) : Nat :=
  program.instructions.size

/-- Two programs have equally many instructions. -/
def sizesAgree (first second : Program) : Bool :=
  first.size = second.size

/-- Where the instruction with a given index was written. -/
def sourceLine? (program : Program) (index : Nat) : Option SourceLine :=
  program.lines[index]?

/-- The byte address of a label, if it is defined. -/
def entryAddress? (program : Program) (label : Text) : Option Word :=
  (program.symbols.get? label).map Symbol.address

/-- The machine words of the program. -/
def words (program : Program) : List Word :=
  program.instructions.toList.map Instruction.encode

/-- A program without labels, whose source lines are its printed instructions. -/
def ofInstructions (instructions : List Instruction) : Program where
  instructions := instructions.toArray
  symbols := .empty
  lines := ((instructions.zipIdx 1).map fun (instruction, line) =>
    ⟨line, instruction.text⟩).toArray

/-- The annotated lines of one instruction: its labels, then its address, word and text. -/
def annotated (program : Program) (index : Nat) (instruction : Instruction) : Text :=
  let labels := (program.symbols.labelsAt index).flatMap fun label => label ++ [':', '\n']
  labels ++ [' ', ' '] ++ (Word.ofIndex index).hex8 ++ [':', ' ', ' ']
    ++ instruction.encode.hex8 ++ [' ', ' '] ++ instruction.text ++ ['\n']

/-- The annotated disassembly of the program. -/
def disassembly (program : Program) : Text :=
  program.instructions.toList.zipIdx.flatMap fun (instruction, index) =>
    program.annotated index instruction

end Program

end TinyMips
