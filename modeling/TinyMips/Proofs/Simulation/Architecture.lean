import TinyMips.Proofs.Machine.Architecture
import TinyMips.Proofs.Simulation.Step

namespace TinyMips.Simulator

/-!
# Steps follow the architecture

Whatever program, registers, memory and program counter there are, a step does what
the architecture says of them in numbers, and fails with the fault that it gives.
-/

/--
A step succeeds exactly where the architecture does and leaves the values that it
gives; where the architecture has a fault, the step fails with it and changes nothing.
-/
theorem step_follows_architecture (simulator : Simulator) :
    match simulator.machine.values.step simulator.program.instructions with
    | .ok state =>
        ∃ outcome next,
          simulator.step = (.ok outcome, next) ∧
            next.program = simulator.program ∧
            next.machine.values = state
    | .error fault =>
        ∃ error,
          simulator.step = (.error error, simulator) ∧
            error.toFault = fault := by
  rw [Architecture.State.step, Machine.fetch_values]
  cases fetched : simulator.machine.fetch simulator.program.instructions with
  | error error =>
      exact ⟨error, step_of_fetch_error fetched, rfl⟩
  | ok instruction =>
      have follows := simulator.machine.follows_execute instruction
      simp only [Except.mapError]
      cases executed : simulator.machine.values.execute instruction with
      | error fault =>
          rw [executed] at follows
          obtain ⟨error, evaluated, sameFault⟩ := follows
          exact ⟨error, step_of_evaluate_error fetched evaluated, sameFault⟩
      | ok state =>
          rw [executed] at follows
          obtain ⟨effect, evaluated, sameValues⟩ := follows
          exact ⟨_, _, step_of_evaluate_ok fetched evaluated, rfl, sameValues⟩

end TinyMips.Simulator
