import TinyMips.WordSet

namespace TinyMips

/-!
# Idle detection

A program that comes back to an address without having changed a register or a
memory word in between will do the same for ever. The detector remembers the
addresses reached since the last change.
-/

/-- The addresses reached since the last step that changed the state. -/
structure IdleDetector where
  visited : WordSet
  deriving DecidableEq, Repr

namespace IdleDetector

/-- The detector that has seen nothing. -/
def fresh : IdleDetector := ⟨.empty⟩

/--
Observe the address that a step reached, and whether the step changed the state.
The answer says whether the address was reached before without a change since.
-/
def observe (detector : IdleDetector) (pc : Word) (changed : Bool) : Bool × IdleDetector :=
  if detector.visited.contains pc then
    (true, detector)
  else if changed then
    (false, fresh)
  else
    (false, ⟨detector.visited.insert pc⟩)

end IdleDetector

end TinyMips
