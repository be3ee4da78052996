import TinyMips.Word

namespace TinyMips

/-!
# Configuration

The settings of a simulation, with their defaults.
-/

/-- The settings of a simulation. -/
structure Config where
  /-- Log every completed instruction. -/
  traceInstructions : Bool := false
  /-- The byte address of the first instruction. -/
  startAddress : Word := 0
  /-- The cycles a run may take if its caller sets no limit. -/
  maxCycles : Nat := 100000
  /-- The number of words of data memory. -/
  memoryWords : Nat := 1024
  deriving DecidableEq, Repr

end TinyMips
