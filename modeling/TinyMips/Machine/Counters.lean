import TinyMips.Instruction.Basic

namespace TinyMips

/-!
# Statistics counters

What a machine counts while it runs. Only an instruction that completes counts.
-/

/-- The counters of a run. -/
structure Counters where
  cycles : Nat := 0
  retired : Nat := 0
  alu : Nat := 0
  loads : Nat := 0
  stores : Nat := 0
  branches : Nat := 0
  branchesTaken : Nat := 0
  registerWrites : Nat := 0
  zeroWrites : Nat := 0
  memoryWrites : Nat := 0
  deriving DecidableEq, Repr

namespace Counters

/-- Count one completed instruction of a class. -/
def retire (counters : Counters) (category : InstructionClass) : Counters :=
  let counters :=
    { counters with cycles := counters.cycles + 1, retired := counters.retired + 1 }
  match category with
  | .alu => { counters with alu := counters.alu + 1 }
  | .load => { counters with loads := counters.loads + 1 }
  | .store => { counters with stores := counters.stores + 1 }
  | .branch => { counters with branches := counters.branches + 1 }

end Counters

end TinyMips
