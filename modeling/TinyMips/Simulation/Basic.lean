import TinyMips.Machine.Execution
import TinyMips.Program.Basic
import TinyMips.Simulation.Idle

namespace TinyMips

/-!
# Simulation

A simulator steps a machine through a program. A bounded run is a number of
steps that ends early only at an error; a run until idle also ends when the
program can change nothing any more. What a run did, step by step, is its
history.
-/

/-- What one step did. -/
structure StepOutcome where
  pc : Word
  instruction : Instruction
  effect : Effect
  deriving DecidableEq, Repr

/-- The reason a run ended. -/
inductive StopReason where
  /-- The program came back to an address without changing anything. -/
  | idle
  /-- All cycles were used. -/
  | cycleBudget
  deriving DecidableEq, Repr

/-- The result of a run. -/
structure RunSummary where
  cycles : Nat
  stop : StopReason
  deriving DecidableEq, Repr

/-- A machine and the program it runs. -/
structure Simulator where
  program : Program
  machine : Machine
  deriving DecidableEq, Repr

namespace Simulator

/-- A simulator at the start of a program. -/
def new (program : Program) (config : Config) : Simulator :=
  ⟨program, .ofConfig config⟩

/-- The simulator with a label as its start, if the program defines the label. -/
def withEntry? (simulator : Simulator) (label : Text) : Option Simulator :=
  (simulator.program.entryAddress? label).map fun address =>
    { simulator with machine := simulator.machine.startAt address }

/-- The simulator as it was at the start. -/
def reset (simulator : Simulator) : Simulator :=
  { simulator with machine := simulator.machine.reset }

/-- Execute the instruction at the program counter. -/
def step (simulator : Simulator) : Except ExecutionError StepOutcome × Simulator :=
  match simulator.machine.fetch simulator.program.instructions with
  | .error error => (.error error, simulator)
  | .ok instruction =>
      let pc := simulator.machine.pc
      let (result, machine) := simulator.machine.execute instruction
      (result.map (⟨pc, instruction, ·⟩), { simulator with machine })

/-- Take a number of steps, or fewer if one fails, and return the error that ended them. -/
def steps : Nat → Simulator → Option ExecutionError × Simulator
  | 0, simulator => (none, simulator)
  | count + 1, simulator =>
      match simulator.step with
      | (.error error, simulator) => (some error, simulator)
      | (.ok _, simulator) => steps count simulator

/-- Run for a number of cycles. -/
def run (cycles : Nat) (simulator : Simulator) : Except ExecutionError RunSummary × Simulator :=
  match steps cycles simulator with
  | (some error, simulator) => (.error error, simulator)
  | (none, simulator) => (.ok ⟨cycles, .cycleBudget⟩, simulator)

/-- Go on with a run until idle that took `taken` cycles and has `left` more to take. -/
def runIdle
    (detector : IdleDetector)
    (taken : Nat) :
    Nat → Simulator → Except ExecutionError RunSummary × Simulator
  | 0, simulator => (.ok ⟨taken, .cycleBudget⟩, simulator)
  | left + 1, simulator =>
      match simulator.step with
      | (.error error, simulator) => (.error error, simulator)
      | (.ok outcome, simulator) =>
          let pc := simulator.machine.pc
          let (idle, detector) := detector.observe pc outcome.effect.changesState
          if idle then
            (.ok ⟨taken + 1, .idle⟩, simulator)
          else
            runIdle detector (taken + 1) left simulator

/-- Run until the program idles, for a number of cycles at most. -/
def runUntilIdle
    (cycles : Nat)
    (simulator : Simulator) :
    Except ExecutionError RunSummary × Simulator :=
  runIdle .fresh 0 cycles simulator

/-- The outcomes of the first steps, up to an error, with `earlier` ones in reverse. -/
def outcomes (earlier : List StepOutcome) : Nat → Simulator → List StepOutcome
  | 0, _ => earlier.reverse
  | count + 1, simulator =>
      match simulator.step with
      | (.error _, _) => earlier.reverse
      | (.ok outcome, simulator) => outcomes (outcome :: earlier) count simulator

/-- What the first steps did, up to an error. -/
def history (cycles : Nat) (simulator : Simulator) : List StepOutcome :=
  outcomes [] cycles simulator

end Simulator

end TinyMips
