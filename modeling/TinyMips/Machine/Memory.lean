import TinyMips.Word

namespace TinyMips

/-!
# Data memory

A fixed number of words. An access has to name the first byte of a word inside
the memory; an address that fails both ways is reported as misaligned.
-/

/-- The direction of a memory access. -/
inductive Access where
  /-- From memory to a register. -/
  | load
  /-- From a register to memory. -/
  | store
  deriving DecidableEq, Repr

/-- The direction as error messages put it. -/
def Access.name : Access → String
  | .load => "load"
  | .store => "store"

/-- The reason an access is refused. -/
inductive MemoryFault where
  /-- The address is not a multiple of four. -/
  | misaligned
  /-- The address lies past the end. -/
  | outOfBounds
  deriving DecidableEq, Repr

/-- The reason as error messages put it. -/
def MemoryFault.name : MemoryFault → String
  | .misaligned => "misaligned"
  | .outOfBounds => "out of bounds"

/-- A refused access. -/
structure AccessError where
  address : Word
  access : Access
  fault : MemoryFault
  deriving DecidableEq, Repr

/-- The wording of a refused access. -/
def AccessError.message (error : AccessError) : String :=
  s!"{error.fault.name} {error.access.name} at address {error.address.address.asString}"

/-- The words of the data memory. -/
structure Memory where
  cells : Array Word
  deriving DecidableEq, Repr

namespace Memory

/-- A memory of the given number of words, all zero. -/
def zeroed (size : Nat) : Memory :=
  ⟨Array.replicate size 0⟩

/-- The number of words. -/
def size (memory : Memory) : Nat :=
  memory.cells.size

/-- The memory with every word zero. -/
def clear (memory : Memory) : Memory :=
  zeroed memory.size

/-- The word at an index; there is a zero past the end. -/
def word (memory : Memory) (index : Nat) : Word :=
  memory.cells.getD index 0

/-- What is wrong with an access to an address of a memory of the given size, if anything is. -/
def fault? (size : Nat) (address : Word) : Option MemoryFault :=
  if !address.isAligned then some .misaligned
  else if address.index ≥ size then some .outOfBounds
  else none

/-- The index of the word at an address, or the error that there is none. -/
def check (memory : Memory) (address : Word) (access : Access) : Except AccessError Nat :=
  match fault? memory.size address with
  | some fault => .error ⟨address, access, fault⟩
  | none => .ok address.index

/-- The word at an address. -/
def read (memory : Memory) (address : Word) : Except AccessError Word :=
  (memory.check address .load).map memory.word

/-- The memory with a new word at an address; nothing changes past the end. -/
def store (memory : Memory) (address value : Word) : Memory :=
  ⟨memory.cells.setIfInBounds address.index value⟩

/-- The memory after a write to the word at an address. -/
def write (memory : Memory) (address value : Word) : Except AccessError Memory :=
  (memory.check address .store).map fun _ => memory.store address value

/-- The words that are not zero, with their indices. -/
def nonzero (memory : Memory) : List (Nat × Word) :=
  (memory.cells.toList.zipIdx.filter fun (word, _) => word ≠ 0).map fun (word, index) =>
    (index, word)

end Memory

end TinyMips
