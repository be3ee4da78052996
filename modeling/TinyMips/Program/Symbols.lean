import TinyMips.Assembly.Error
import TinyMips.Word

namespace TinyMips

/-!
# Symbol tables

A symbol table maps label names to the instructions they name. Names are compared
exactly, and a name is defined once. Listings of the table depend on its entries
alone and not on the order in which they were defined.
-/

/-- What a label names: the index of an instruction, and the line of the definition. -/
structure Symbol where
  index : Nat
  line : Nat
  deriving DecidableEq, Repr

/-- The byte address of the instruction that a label names. -/
def Symbol.address (symbol : Symbol) : Word :=
  Word.ofIndex symbol.index

/-- The defined labels, the latest definition first. -/
structure SymbolTable where
  entries : List (Text × Symbol)
  deriving DecidableEq, Repr

namespace SymbolTable

/-- The table without labels. -/
def empty : SymbolTable := ⟨[]⟩

/-- The symbol of a label, if it is defined. -/
def get? (table : SymbolTable) (name : Text) : Option Symbol :=
  table.entries.lookup name

/-- The number of labels. -/
def size (table : SymbolTable) : Nat :=
  table.entries.length

/-- Define a label; a label that is defined already is reported with its first line. -/
def define
    (table : SymbolTable)
    (name : Text)
    (symbol : Symbol) :
    Except AssemblyError SymbolTable :=
  match table.get? name with
  | some first => .error ⟨symbol.line, .duplicateLabel name first.line⟩
  | none => .ok ⟨(name, symbol) :: table.entries⟩

/-- One name comes before or is another, by the code points of their characters. -/
def nameLe (first second : Text) : Bool :=
  !decide (second < first)

/-- One entry comes before or is another, by index and then by name. -/
def entryLe (first second : Text × Symbol) : Bool :=
  if first.2.index = second.2.index then
    nameLe first.1 second.1
  else
    first.2.index < second.2.index

/-- The labels that name a given instruction, by name. -/
def labelsAt (table : SymbolTable) (index : Nat) : List Text :=
  ((table.entries.filter fun entry => entry.2.index = index).map Prod.fst).mergeSort nameLe

/-- All labels with their symbols, by index and then by name. -/
def sorted (table : SymbolTable) : List (Text × Symbol) :=
  table.entries.mergeSort entryLe

end SymbolTable

end TinyMips
