import TinyMips.Proofs.Machine.Effect
import TinyMips.Simulation.Basic

namespace TinyMips

/-!
# What a step can do

A step fetches, evaluates and lets the effect take place; one that fails at
either of the first two leaves the simulator as it was. Everything about runs is
derived from these facts.
-/

namespace Simulator

/-- The simulator after a step with the given instruction and effect. -/
def after
    (simulator : Simulator)
    (instruction : Instruction)
    (effect : Effect) :
    Simulator :=
  { simulator with machine := simulator.machine.apply instruction effect }

/-- A step whose instruction fails changes nothing. -/
theorem step_of_evaluate_error
    {simulator : Simulator}
    {instruction : Instruction}
    {error : ExecutionError}
    (fetched :
      simulator.machine.fetch simulator.program.instructions = .ok instruction)
    (evaluated : simulator.machine.evaluate instruction = .error error) :
    simulator.step = (.error error, simulator) := by
  simp [step, fetched, Machine.execute_of_evaluate_error evaluated, Except.map]

/-- A step applies the effect of the instruction that is fetched. -/
theorem step_of_evaluate_ok
    {simulator : Simulator}
    {instruction : Instruction}
    {effect : Effect}
    (fetched :
      simulator.machine.fetch simulator.program.instructions = .ok instruction)
    (evaluated : simulator.machine.evaluate instruction = .ok effect) :
    simulator.step =
      (.ok ⟨simulator.machine.pc, instruction, effect⟩,
        simulator.after instruction effect) := by
  simp [step, fetched, Machine.execute_of_evaluate_ok evaluated, Except.map, after]

theorem step_of_fetch_error
    {simulator : Simulator}
    {error : ExecutionError}
    (fetched :
      simulator.machine.fetch simulator.program.instructions = .error error) :
    simulator.step = (.error error, simulator) := by
  simp [step, fetched]

/-- A step succeeds exactly if its instruction is fetched and evaluates. -/
theorem step_eq_ok_iff
    {simulator next : Simulator}
    {outcome : StepOutcome} :
    simulator.step = (.ok outcome, next) ↔
      simulator.machine.fetch simulator.program.instructions =
          .ok outcome.instruction ∧
        simulator.machine.evaluate outcome.instruction = .ok outcome.effect ∧
        outcome.pc = simulator.machine.pc ∧
        next = simulator.after outcome.instruction outcome.effect := by
  constructor
  · intro stepped
    cases fetched : simulator.machine.fetch simulator.program.instructions with
    | error error =>
        simp [step_of_fetch_error fetched] at stepped
    | ok instruction =>
        cases evaluated : simulator.machine.evaluate instruction with
        | error error =>
            simp [step_of_evaluate_error fetched evaluated] at stepped
        | ok effect =>
            rw [step_of_evaluate_ok fetched evaluated] at stepped
            obtain ⟨sameOutcome, rfl⟩ := Prod.mk.inj stepped
            obtain rfl := Except.ok.inj sameOutcome
            exact ⟨rfl, evaluated, rfl, rfl⟩
  · rintro ⟨fetched, evaluated, samePc, rfl⟩
    rw [step_of_evaluate_ok fetched evaluated, ← samePc]

/-- A step that fails leaves the simulator as it was. -/
theorem eq_of_step_error
    {simulator next : Simulator}
    {error : ExecutionError}
    (stepped : simulator.step = (.error error, next)) :
    next = simulator := by
  cases fetched : simulator.machine.fetch simulator.program.instructions with
  | error reason =>
      rw [step_of_fetch_error fetched] at stepped
      exact (Prod.mk.inj stepped).2.symm
  | ok instruction =>
      cases evaluated : simulator.machine.evaluate instruction with
      | error reason =>
          rw [step_of_evaluate_error fetched evaluated] at stepped
          exact (Prod.mk.inj stepped).2.symm
      | ok effect =>
          simp [step_of_evaluate_ok fetched evaluated] at stepped

/-- After a step that succeeds, the steps go on. -/
theorem steps_succ_of_ok
    {simulator next : Simulator}
    {outcome : StepOutcome}
    (stepped : simulator.step = (.ok outcome, next))
    (count : Nat) :
    steps (count + 1) simulator = steps count next := by
  simp [steps, stepped]

theorem steps_succ_of_error
    {simulator next : Simulator}
    {error : ExecutionError}
    (stepped : simulator.step = (.error error, next))
    (count : Nat) :
    steps (count + 1) simulator = (some error, next) := by
  simp [steps, stepped]

/-- A run succeeds exactly if none of its steps fails. -/
theorem run_eq_ok_iff
    {simulator later : Simulator}
    {cycles : Nat}
    {summary : RunSummary} :
    simulator.run cycles = (.ok summary, later) ↔
      steps cycles simulator = (none, later) ∧ summary = ⟨cycles, .cycleBudget⟩ := by
  unfold run
  split
  · rename_i failed
    simp [failed]
  · rename_i succeeded
    simp [succeeded, and_comm, eq_comm]

end Simulator

end TinyMips
