import TinyMips.Simulation.Basic

namespace TinyMips

/-!
# Snapshots

The part of the state that a run leaves behind for others to look at. Reading
outside the registers or the memory gives zero.
-/

/-- The program counter, registers and memory at one moment. -/
structure Snapshot where
  pc : Word
  registers : Vector Word 32
  memory : Array Word
  deriving DecidableEq, Repr

namespace Snapshot

/-- The element at an index, or zero if there is none. -/
def elementAt (words : Array Word) (index : Int) : Word :=
  match index with
  | .ofNat index => words.getD index 0
  | .negSucc _ => 0

/-- The register with an index, or zero if there is none. -/
def register (snapshot : Snapshot) (index : Int) : Word :=
  elementAt snapshot.registers.toArray index

/-- The memory word with an index, or zero if there is none. -/
def memoryWord (snapshot : Snapshot) (index : Int) : Word :=
  elementAt snapshot.memory index

/-- The memory words that are not zero, with their byte addresses. -/
def nonzeroMemory (snapshot : Snapshot) : List (Word × Word) :=
  (snapshot.memory.toList.zipIdx.filter fun (word, _) => word ≠ 0).map fun (word, index) =>
    (Word.ofIndex index, word)

/-- Words as an indented JSON array, one word a row. -/
def jsonArray (words : List Word) : String :=
  if words.isEmpty then
    "[]"
  else
    "[\n    " ++ String.intercalate ",\n    " (words.map fun word => toString word.toNat) ++ "\n  ]"

/-- The snapshot as an indented JSON object. -/
def json (snapshot : Snapshot) : String :=
  let fields :=
    [("pc", toString snapshot.pc.toNat), ("registers", jsonArray snapshot.registers.toList),
      ("memory", jsonArray snapshot.memory.toList)]
  let rows := fields.map fun (name, value) => s!"  \"{name}\": {value}"
  "\x7b\n" ++ String.intercalate ",\n" rows ++ "\n\x7d"

end Snapshot

/-- The state of a machine that others can look at. -/
def Machine.snapshot (machine : Machine) : Snapshot :=
  ⟨machine.pc, machine.registers.cells, machine.memory.cells⟩

/-- The state of a simulator that others can look at. -/
def Simulator.snapshot (simulator : Simulator) : Snapshot :=
  simulator.machine.snapshot

end TinyMips
