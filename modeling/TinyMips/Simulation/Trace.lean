import TinyMips.Log
import TinyMips.Simulation.Basic

namespace TinyMips

/-!
# Traces

The log of a run: one line for every completed instruction, if the machine is
traced, and one line when an idle loop is found.
-/

/-- A completed instruction as an event of the log. -/
def StepOutcome.event (outcome : StepOutcome) : LogEvent where
  level := .debug
  message := Text.asString (outcome.pc.address ++ [':', ' ']
    ++ Text.padRight 28 outcome.instruction.text ++ ' ' :: outcome.effect.description)

namespace Simulator

/-- The events of the first steps. -/
def stepEvents (cycles : Nat) (simulator : Simulator) : List LogEvent :=
  if simulator.machine.traced then (simulator.history cycles).map StepOutcome.event else []

/-- The event of an idle loop found after a number of cycles. -/
def idleEvent (cycles : Nat) (pc : Word) : LogEvent where
  level := .debug
  message := "loop detected"
  fields := [.ofNat "cycles" cycles, .ofNat "pc" pc.toNat]

/-- The events of a run until idle. -/
def idleRunEvents (cycles : Nat) (simulator : Simulator) : List LogEvent :=
  match simulator.runUntilIdle cycles with
  | (.ok ⟨taken, .idle⟩, final) =>
      simulator.stepEvents taken ++ [idleEvent taken final.machine.pc]
  | (.ok ⟨taken, .cycleBudget⟩, _) => simulator.stepEvents taken
  | (.error _, _) => simulator.stepEvents cycles

end Simulator

end TinyMips
