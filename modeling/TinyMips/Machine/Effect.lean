import TinyMips.Machine.Counters

namespace TinyMips

/-!
# Effects

Every instruction that completes has exactly one effect on the machine.
-/

/-- What an instruction does to the machine. -/
inductive Effect where
  /-- A register other than register zero is written. -/
  | registerWrite (reg : Reg) (before after : Word)
  /-- A result for register zero is dropped. -/
  | discarded (value : Word)
  /-- A word of memory is written. -/
  | memoryWrite (address before after : Word)
  /-- A branch is decided. -/
  | branch (taken : Bool) (target : Word)
  deriving DecidableEq, Repr

namespace Effect

/-- The effect changes the value of a register or of a memory word. -/
def changesState : Effect → Bool
  | .registerWrite _ before after | .memoryWrite _ before after => before ≠ after
  | .discarded _ | .branch .. => false

/-- Count an effect that takes place. -/
def count (effect : Effect) (counters : Counters) : Counters :=
  match effect with
  | .registerWrite .. => { counters with registerWrites := counters.registerWrites + 1 }
  | .discarded _ => { counters with zeroWrites := counters.zeroWrites + 1 }
  | .memoryWrite .. => { counters with memoryWrites := counters.memoryWrites + 1 }
  | .branch taken _ =>
      if taken then
        { counters with branchesTaken := counters.branchesTaken + 1 }
      else
        counters

/-- The program counter after an effect that takes place at `pc`. -/
def next (effect : Effect) (pc : Word) : Word :=
  match effect with
  | .branch true target => target
  | _ => pc + 4

/-- The effect in a few words. -/
def description : Effect → Text
  | .registerWrite reg before after =>
      reg.text ++ Text.ofString " = " ++ after.shortHex ++ Text.ofString " (was "
        ++ before.shortHex ++ [')']
  | .discarded value => Text.ofString "$zero <- " ++ value.shortHex ++ Text.ofString " discarded"
  | .memoryWrite address before after =>
      Text.ofString "mem[" ++ address.shortHex ++ Text.ofString "] = " ++ after.shortHex
        ++ Text.ofString " (was " ++ before.shortHex ++ [')']
  | .branch true target => Text.ofString "branch -> " ++ target.shortHex
  | .branch false _ => Text.ofString "branch not taken"

end Effect

end TinyMips
