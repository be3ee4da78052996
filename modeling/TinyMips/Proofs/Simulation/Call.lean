import TinyMips.Proofs.Simulation.Step
import TinyMips.Simulation.Snapshot

namespace TinyMips

/-!
# What can be seen of a simulator

A simulator is used by calls, and after any number of them its answers, its
snapshot and its counters can be looked at. Labels, source lines and tracing do
not matter there: simulators that match in everything else go on matching and
give the same answers.
-/

/-- What a user of a simulator can ask it to do. -/
inductive Call where
  /-- Execute one instruction. -/
  | step
  /-- Run for a number of cycles. -/
  | run (cycles : Nat)
  /-- Run until idle, for a number of cycles at most. -/
  | runUntilIdle (cycles : Nat)
  /-- Go back to the start. -/
  | reset
  deriving DecidableEq, Repr

/-- What a simulator answers to a call. -/
inductive Answer where
  /-- What the step did, or why it failed. -/
  | stepped (result : Except ExecutionError StepOutcome)
  /-- How the run ended. -/
  | ran (result : Except ExecutionError RunSummary)
  /-- A reset has no result. -/
  | done

/-- What can be seen after some calls: all answers, and the state that is left. -/
structure Observation where
  answers : List Answer
  snapshot : Snapshot
  counters : Counters

namespace Simulator

/-- Carry out one call. -/
def respond (simulator : Simulator) : Call → Answer × Simulator
  | .step =>
      let (result, next) := simulator.step
      (.stepped result, next)
  | .run cycles =>
      let (result, next) := simulator.run cycles
      (.ran result, next)
  | .runUntilIdle cycles =>
      let (result, next) := simulator.runUntilIdle cycles
      (.ran result, next)
  | .reset => (.done, simulator.reset)

/-- Carry out calls in order. -/
def conduct : List Call → Simulator → List Answer × Simulator
  | [], simulator => ([], simulator)
  | call :: calls, simulator =>
      let (answer, next) := simulator.respond call
      let (answers, final) := conduct calls next
      (answer :: answers, final)

/-- What can be seen of a simulator after calls. -/
def observe (simulator : Simulator) (calls : List Call) : Observation :=
  let (answers, final) := conduct calls simulator
  ⟨answers, final.snapshot, final.machine.counters⟩

/-- Two simulators differ at most in their labels, source lines and tracing. -/
structure Matches (first second : Simulator) : Prop where
  instructions : first.program.instructions = second.program.instructions
  registers : first.machine.registers = second.machine.registers
  memory : first.machine.memory = second.machine.memory
  pc : first.machine.pc = second.machine.pc
  counters : first.machine.counters = second.machine.counters
  start : first.machine.start = second.machine.start

/-- Equal results that leave matching simulators. -/
structure Agree {α : Type} (first second : α × Simulator) : Prop where
  result : first.1 = second.1
  simulators : first.2.Matches second.2

namespace Matches

variable {first second : Simulator}

/-- Machines that match still match after the same effect. -/
theorem after
    (matching : first.Matches second)
    (instruction : Instruction)
    (effect : Effect) :
    (first.after instruction effect).Matches (second.after instruction effect) where
  instructions := matching.instructions
  registers := congrArg (Machine.registersAfter · effect) matching.registers
  memory := congrArg (Machine.memoryAfter · effect) matching.memory
  pc := congrArg effect.next matching.pc
  counters :=
    congrArg (fun counters => (effect.count counters).retire instruction.category)
      matching.counters
  start := matching.start

/-- Matching simulators take the same step. -/
theorem step
    (matching : first.Matches second) :
    Agree first.step second.step := by
  have sameFetch :
      first.machine.fetch first.program.instructions =
        second.machine.fetch second.program.instructions := by
    rw [matching.instructions]
    exact Machine.fetch_congr matching.pc _
  cases fetched : second.machine.fetch second.program.instructions with
  | error error =>
      rw [step_of_fetch_error fetched, step_of_fetch_error (sameFetch.trans fetched)]
      exact ⟨rfl, matching⟩
  | ok instruction =>
      have sameEvaluation :=
        Machine.evaluate_congr matching.registers matching.memory matching.pc instruction
      cases evaluated : second.machine.evaluate instruction with
      | error error =>
          rw [step_of_evaluate_error fetched evaluated,
            step_of_evaluate_error (sameFetch.trans fetched) (sameEvaluation.trans evaluated)]
          exact ⟨rfl, matching⟩
      | ok effect =>
          rw [step_of_evaluate_ok fetched evaluated,
            step_of_evaluate_ok (sameFetch.trans fetched) (sameEvaluation.trans evaluated),
            matching.pc]
          exact ⟨rfl, matching.after instruction effect⟩

/-- A step of matching simulators, with the result that they have in common. -/
theorem step_result
    (matching : first.Matches second) :
    ∃ result next other,
      first.step = (result, next) ∧
        second.step = (result, other) ∧
        next.Matches other := by
  obtain ⟨sameResult, nextMatching⟩ := matching.step
  exact ⟨first.step.1, first.step.2, second.step.2, rfl,
    Prod.ext sameResult.symm rfl, nextMatching⟩

/-- Simulators that match take the same steps, to simulators that match. -/
theorem steps
    (matching : first.Matches second)
    (count : Nat) :
    Agree (first.steps count) (second.steps count) := by
  induction count generalizing first second with
  | zero =>
      exact ⟨rfl, matching⟩
  | succ count inductionHypothesis =>
      obtain ⟨result, next, other, stepped, otherStepped, nextMatching⟩ := matching.step_result
      cases result with
      | error error =>
          rw [steps_succ_of_error stepped, steps_succ_of_error otherStepped]
          exact ⟨rfl, nextMatching⟩
      | ok outcome =>
          rw [steps_succ_of_ok stepped, steps_succ_of_ok otherStepped]
          exact inductionHypothesis nextMatching

/-- Simulators that match have the same runs. -/
theorem run
    (matching : first.Matches second)
    (cycles : Nat) :
    Agree (first.run cycles) (second.run cycles) := by
  obtain ⟨sameError, laterMatching⟩ := matching.steps cycles
  unfold Simulator.run
  cases taken : first.steps cycles with
  | mk error later =>
      cases otherTaken : second.steps cycles with
      | mk otherError otherLater =>
          rw [taken, otherTaken] at sameError laterMatching
          obtain rfl : error = otherError := sameError
          cases error with
          | none => exact ⟨rfl, laterMatching⟩
          | some error => exact ⟨rfl, laterMatching⟩

/-- A detector sees the same addresses and changes in matching simulators. -/
theorem runIdle
    (matching : first.Matches second)
    (detector : IdleDetector)
    (taken left : Nat) :
    Agree (first.runIdle detector taken left) (second.runIdle detector taken left) := by
  induction left generalizing first second detector taken with
  | zero =>
      exact ⟨rfl, matching⟩
  | succ left inductionHypothesis =>
      obtain ⟨result, next, other, stepped, otherStepped, nextMatching⟩ := matching.step_result
      cases result with
      | error error =>
          simp only [Simulator.runIdle, stepped, otherStepped]
          exact ⟨rfl, nextMatching⟩
      | ok outcome =>
          simp only [Simulator.runIdle, stepped, otherStepped, nextMatching.pc]
          split
          · exact ⟨rfl, nextMatching⟩
          · exact inductionHypothesis nextMatching _ _

theorem reset
    (matching : first.Matches second) :
    first.reset.Matches second.reset where
  instructions := matching.instructions
  registers := rfl
  memory := congrArg Memory.clear matching.memory
  pc := matching.start
  counters := rfl
  start := matching.start

/-- Matching simulators answer every call alike. -/
theorem respond
    (matching : first.Matches second)
    (call : Call) :
    Agree (first.respond call) (second.respond call) := by
  cases call with
  | step =>
      obtain ⟨sameResult, nextMatching⟩ := matching.step
      exact ⟨congrArg Answer.stepped sameResult, nextMatching⟩
  | run cycles =>
      obtain ⟨sameResult, nextMatching⟩ := matching.run cycles
      exact ⟨congrArg Answer.ran sameResult, nextMatching⟩
  | runUntilIdle cycles =>
      obtain ⟨sameResult, nextMatching⟩ := matching.runIdle .fresh 0 cycles
      exact ⟨congrArg Answer.ran sameResult, nextMatching⟩
  | reset =>
      exact ⟨rfl, matching.reset⟩

/-- Simulators that match answer all calls alike. -/
theorem conduct
    (matching : first.Matches second)
    (calls : List Call) :
    Agree (Simulator.conduct calls first) (Simulator.conduct calls second) := by
  induction calls generalizing first second with
  | nil =>
      exact ⟨rfl, matching⟩
  | cons call calls inductionHypothesis =>
      obtain ⟨sameAnswer, nextMatching⟩ := matching.respond call
      obtain ⟨sameAnswers, finalMatching⟩ := inductionHypothesis nextMatching
      refine ⟨?_, finalMatching⟩
      simp only [Simulator.conduct, sameAnswer, sameAnswers]

theorem snapshot
    (matching : first.Matches second) :
    first.snapshot = second.snapshot := by
  simp [Simulator.snapshot, Machine.snapshot, matching.pc, matching.registers, matching.memory]

/-- Nothing that can be seen tells matching simulators apart. -/
theorem observe
    (matching : first.Matches second)
    (calls : List Call) :
    first.observe calls = second.observe calls := by
  obtain ⟨sameAnswers, finalMatching⟩ := matching.conduct calls
  simp only [Simulator.observe]
  rw [sameAnswers, finalMatching.snapshot, finalMatching.counters]

end Matches

/-- Labels, source lines and tracing make no difference to new simulators. -/
theorem matches_new
    {first second : Program}
    (sameInstructions : first.instructions = second.instructions)
    (config : Config)
    (traced : Bool) :
    (new first config).Matches (new second { config with traceInstructions := traced }) :=
  ⟨sameInstructions, rfl, rfl, rfl, rfl, rfl⟩

end Simulator

end TinyMips
