import TinyMips.Proofs.Simulation.Path

namespace TinyMips.Simulator

/-!
# Budgets of runs

A bounded run goes along the one path of its simulator, as far as its budget or the
first step that fails. A run until idle goes along the same path under the eyes of
the detector, which may end it earlier. What ends either kind of run before its
budget does ends it under every larger budget, too.
-/

/-! ## Runs in turn -/

/-- Run for a number of cycles and, if that succeeds, for another number. -/
def runInTurn
    (first second : Nat)
    (simulator : Simulator) :
    Except ExecutionError RunSummary × Simulator :=
  match simulator.run first with
  | (.error error, stopped) => (.error error, stopped)
  | (.ok _, between) => between.run second

/-- Two runs leave the same simulator, and both succeed or both fail with one error. -/
structure EndAlike (first second : Except ExecutionError RunSummary × Simulator) : Prop where
  simulators : first.2 = second.2
  errors : first.1.map (fun _ => ()) = second.1.map (fun _ => ())

/-- A run fails exactly if its steps do, with the same error and the same final state. -/
theorem run_eq_error_iff
    {simulator final : Simulator}
    {cycles : Nat}
    {error : ExecutionError} :
    simulator.run cycles = (.error error, final) ↔
      steps cycles simulator = (some error, final) := by
  unfold run
  split
  · rename_i failed
    simp [failed]
  · rename_i succeeded
    simp [succeeded]

/-- A run succeeds exactly if there is a path of its length. -/
theorem run_eq_ok_iff_path
    {simulator final : Simulator}
    {cycles : Nat}
    {summary : RunSummary} :
    simulator.run cycles = (.ok summary, final) ↔
      summary = ⟨cycles, .cycleBudget⟩ ∧
        ∃ outcomes, Path simulator outcomes final ∧ outcomes.length = cycles := by
  rw [run_eq_ok_iff, steps_eq_none_iff, and_comm]

/-- A run fails exactly if a shorter path ends where the next step fails. -/
theorem run_eq_error_iff_path
    {simulator final : Simulator}
    {cycles : Nat}
    {error : ExecutionError} :
    simulator.run cycles = (.error error, final) ↔
      ∃ outcomes,
        Path simulator outcomes final ∧
          outcomes.length < cycles ∧
          final.step = (.error error, final) := by
  rw [run_eq_error_iff, steps_eq_some_iff]

/-- A run along a path uses up its budget. -/
theorem Path.run
    {simulator final : Simulator}
    {outcomes : List StepOutcome}
    (path : Path simulator outcomes final) :
    simulator.run outcomes.length = (.ok ⟨outcomes.length, .cycleBudget⟩, final) :=
  run_eq_ok_iff_path.mpr ⟨rfl, outcomes, path, rfl⟩

/-- Two runs in turn end like one run with both budgets. -/
theorem runInTurn_endAlike
    (simulator : Simulator)
    (first second : Nat) :
    EndAlike (simulator.runInTurn first second) (simulator.run (first + second)) := by
  cases ranFirst : simulator.run first with
  | mk result between =>
      cases result with
      | error error =>
          obtain ⟨outcomes, path, fewer, failed⟩ := run_eq_error_iff_path.mp ranFirst
          have ranBoth : simulator.run (first + second) = (.error error, between) :=
            run_eq_error_iff_path.mpr
              ⟨outcomes, path, Nat.lt_add_right second fewer, failed⟩
          rw [runInTurn, ranFirst, ranBoth]
          exact ⟨rfl, rfl⟩
      | ok summary =>
          obtain ⟨_, outcomes, path, sameLength⟩ := run_eq_ok_iff_path.mp ranFirst
          subst sameLength
          rw [runInTurn, ranFirst]
          cases taken : steps second between with
          | mk failure final =>
              simp only [Simulator.run, path.steps_add, taken]
              cases failure with
              | none => exact ⟨rfl, rfl⟩
              | some error => exact ⟨rfl, rfl⟩

/-! ## Runs until idle -/

/-- A path that the detector watches without ending the run. -/
inductive Unended :
    IdleDetector → Simulator → List StepOutcome → IdleDetector → Simulator → Prop where
  | nil (detector : IdleDetector) (simulator : Simulator) :
      Unended detector simulator [] detector simulator
  | cons
      {detector later last : IdleDetector}
      {simulator next final : Simulator}
      {outcome : StepOutcome}
      {outcomes : List StepOutcome}
      (stepped : simulator.step = (.ok outcome, next))
      (observed :
        detector.observe next.machine.pc outcome.effect.changesState = (false, later))
      (rest : Unended later next outcomes last final) :
      Unended detector simulator (outcome :: outcomes) last final

/-- What a run until idle returns if its next step ends it. -/
inductive EndsNext
    (detector : IdleDetector)
    (taken : Nat)
    (simulator : Simulator) :
    Except ExecutionError RunSummary × Simulator → Prop where
  | idle
      {outcome : StepOutcome}
      {final : Simulator}
      (stepped : simulator.step = (.ok outcome, final))
      (observed :
        (detector.observe final.machine.pc outcome.effect.changesState).1 = true) :
      EndsNext detector taken simulator (.ok ⟨taken + 1, .idle⟩, final)
  | error
      {error : ExecutionError}
      (failed : simulator.step = (.error error, simulator)) :
      EndsNext detector taken simulator (.error error, simulator)

/-- Steps that do not end a run are a path. -/
theorem Unended.path
    {detector later : IdleDetector}
    {simulator final : Simulator}
    {outcomes : List StepOutcome}
    (unended : Unended detector simulator outcomes later final) :
    Path simulator outcomes final := by
  induction unended with
  | nil detector simulator =>
      exact .nil simulator
  | cons stepped _ _ inductionHypothesis =>
      exact .cons stepped inductionHypothesis

/-- After steps that do not end it, a run goes on with what is left of the budget. -/
theorem Unended.runIdle_add
    {detector later : IdleDetector}
    {simulator final : Simulator}
    {outcomes : List StepOutcome}
    (unended : Unended detector simulator outcomes later final)
    (taken left : Nat) :
    runIdle detector taken (outcomes.length + left) simulator =
      runIdle later (taken + outcomes.length) left final := by
  induction unended generalizing taken with
  | nil detector simulator =>
      rw [List.length_nil, Nat.zero_add, Nat.add_zero]
  | cons stepped observed _ inductionHypothesis =>
      rw [List.length_cons, Nat.add_right_comm, runIdle, stepped]
      simp only [observed, Bool.false_eq_true, ↓reduceIte]
      rw [inductionHypothesis, Nat.add_assoc, Nat.add_comm 1]

/-- A run that the detector has not ended can be parted anywhere. -/
theorem Unended.split
    {detector last : IdleDetector}
    {simulator final : Simulator}
    {first second : List StepOutcome}
    (unended : Unended detector simulator (first ++ second) last final) :
    ∃ between middle,
      Unended detector simulator first between middle ∧
        Unended between middle second last final := by
  induction first generalizing detector simulator with
  | nil =>
      exact ⟨detector, simulator, .nil detector simulator, unended⟩
  | cons outcome first inductionHypothesis =>
      cases unended with
      | cons stepped observed rest =>
          obtain ⟨between, middle, leading, trailing⟩ := inductionHypothesis rest
          exact ⟨between, middle, .cons stepped observed leading, trailing⟩

/-- A run that ends with its next step ends so under any larger budget. -/
theorem EndsNext.runIdle_succ
    {detector : IdleDetector}
    {taken : Nat}
    {simulator : Simulator}
    {result : Except ExecutionError RunSummary × Simulator}
    (ends : EndsNext detector taken simulator result)
    (left : Nat) :
    runIdle detector taken (left + 1) simulator = result := by
  cases ends with
  | idle stepped observed =>
      rw [runIdle, stepped]
      simp only [observed, ↓reduceIte]
  | error failed =>
      rw [runIdle, failed]

/-- A run whose budget ends before the detector ends it uses the whole budget. -/
theorem Unended.runUntilIdle_of_le
    {detector : IdleDetector}
    {simulator final : Simulator}
    {outcomes : List StepOutcome}
    {budget : Nat}
    (unended : Unended .fresh simulator outcomes detector final)
    (within : budget ≤ outcomes.length) :
    ∃ later, simulator.runUntilIdle budget = (.ok ⟨budget, .cycleBudget⟩, later) := by
  rw [← List.take_append_drop budget outcomes] at unended
  obtain ⟨between, middle, leading, _⟩ := unended.split
  have ran := leading.runIdle_add 0 0
  rw [List.length_take_of_le within, Nat.add_zero, Nat.zero_add] at ran
  exact ⟨middle, ran⟩

/-- What ends a run after a path ends it under every budget beyond the path. -/
theorem Unended.runUntilIdle_of_ends
    {detector : IdleDetector}
    {simulator final : Simulator}
    {outcomes : List StepOutcome}
    {result : Except ExecutionError RunSummary × Simulator}
    {budget : Nat}
    (unended : Unended .fresh simulator outcomes detector final)
    (ends : EndsNext detector outcomes.length final result)
    (beyond : outcomes.length < budget) :
    simulator.runUntilIdle budget = result := by
  obtain ⟨left, rfl⟩ := Nat.exists_eq_add_of_lt beyond
  rw [runUntilIdle, Nat.add_assoc, unended.runIdle_add, Nat.zero_add]
  exact ends.runIdle_succ left

/-- A run until idle uses its budget, or the step after a shorter path ends it. -/
theorem exists_unended
    (detector : IdleDetector)
    (simulator : Simulator)
    (taken budget : Nat) :
    ∃ outcomes later final,
      Unended detector simulator outcomes later final ∧
        (outcomes.length = budget ∨
          outcomes.length < budget ∧
            ∃ result, EndsNext later (taken + outcomes.length) final result) := by
  induction budget generalizing detector simulator taken with
  | zero =>
      exact ⟨[], detector, simulator, .nil detector simulator, .inl rfl⟩
  | succ budget inductionHypothesis =>
      cases stepped : simulator.step with
      | mk result next =>
          cases result with
          | error error =>
              obtain rfl := eq_of_step_error stepped
              exact ⟨[], detector, next, .nil detector next,
                .inr ⟨Nat.succ_pos budget, _, .error stepped⟩⟩
          | ok outcome =>
              cases observed :
                  detector.observe next.machine.pc outcome.effect.changesState with
              | mk idle later =>
                  cases idle with
                  | true =>
                      have seen :
                          (detector.observe next.machine.pc
                            outcome.effect.changesState).1 = true := by
                        rw [observed]
                      exact ⟨[], detector, simulator, .nil detector simulator,
                        .inr ⟨Nat.succ_pos budget, _, .idle stepped seen⟩⟩
                  | false =>
                      obtain ⟨outcomes, last, final, unended, ends⟩ :=
                        inductionHypothesis later next (taken + 1)
                      refine ⟨outcome :: outcomes, last, final,
                        .cons stepped observed unended, ?_⟩
                      simpa only [List.length_cons, Nat.add_right_cancel_iff,
                        Nat.add_lt_add_iff_right, Nat.add_assoc, Nat.add_comm 1]
                        using ends

/--
A run until idle goes along the path of its length and stops at its budget, or it
goes along a shorter path and every budget beyond that path ends it alike.
-/
theorem runUntilIdle_along_path
    (simulator : Simulator)
    (budget : Nat) :
    ∃ outcomes final,
      Path simulator outcomes final ∧
        (outcomes.length = budget ∧
            simulator.runUntilIdle budget = (.ok ⟨budget, .cycleBudget⟩, final) ∨
          outcomes.length < budget ∧
            ∃ detector result,
              EndsNext detector outcomes.length final result ∧
                ∀ other > outcomes.length, simulator.runUntilIdle other = result) := by
  obtain ⟨outcomes, detector, final, unended, ends⟩ :=
    exists_unended .fresh simulator 0 budget
  refine ⟨outcomes, final, unended.path, ?_⟩
  rcases ends with sameLength | ⟨fewer, result, ends⟩
  · subst sameLength
    refine .inl ⟨rfl, ?_⟩
    have ran := unended.runIdle_add 0 0
    simpa only [runUntilIdle, runIdle, Nat.add_zero, Nat.zero_add] using ran
  · rw [Nat.zero_add] at ends
    exact .inr ⟨fewer, detector, result, ends,
      fun _ beyond => unended.runUntilIdle_of_ends ends beyond⟩

/-- A run until idle that succeeds has gone along the path of its cycles. -/
theorem path_of_runUntilIdle_ok
    {simulator final : Simulator}
    {budget : Nat}
    {summary : RunSummary}
    (ran : simulator.runUntilIdle budget = (.ok summary, final)) :
    ∃ outcomes, Path simulator outcomes final ∧ outcomes.length = summary.cycles := by
  obtain ⟨outcomes, reached, path,
    ⟨sameLength, stopped⟩ | ⟨fewer, detector, result, ends, every⟩⟩ :=
    simulator.runUntilIdle_along_path budget
  · obtain ⟨sameSummary, rfl⟩ := Prod.mk.inj (stopped.symm.trans ran)
    obtain rfl := Except.ok.inj sameSummary
    exact ⟨outcomes, path, sameLength⟩
  · obtain rfl := (every budget fewer).symm.trans ran
    cases ends with
    | idle stepped observed =>
        exact ⟨outcomes ++ [_], path.append (.cons stepped (.nil _)), by simp⟩

/-- A stop at idle does not depend on the cycles that are left. -/
theorem runUntilIdle_idle_of_le
    {simulator final : Simulator}
    {budget cycles : Nat}
    (ran : simulator.runUntilIdle budget = (.ok ⟨cycles, .idle⟩, final)) :
    cycles ≤ budget ∧
      ∀ other ≥ cycles, simulator.runUntilIdle other = (.ok ⟨cycles, .idle⟩, final) := by
  obtain ⟨outcomes, reached, path, ⟨_, stopped⟩ | ⟨fewer, detector, result, ends, every⟩⟩ :=
    simulator.runUntilIdle_along_path budget
  · simp [stopped] at ran
  · obtain rfl := (every budget fewer).symm.trans ran
    cases ends with
    | idle stepped observed => exact ⟨fewer, every⟩

/-- An error does not depend on the cycles that are left. -/
theorem runUntilIdle_error_of_lt
    {simulator final : Simulator}
    {budget : Nat}
    {error : ExecutionError}
    (ran : simulator.runUntilIdle budget = (.error error, final)) :
    ∃ outcomes,
      Path simulator outcomes final ∧
        outcomes.length < budget ∧
        final.step = (.error error, final) ∧
        ∀ other > outcomes.length,
          simulator.runUntilIdle other = (.error error, final) := by
  obtain ⟨outcomes, reached, path, ⟨_, stopped⟩ | ⟨fewer, detector, result, ends, every⟩⟩ :=
    simulator.runUntilIdle_along_path budget
  · simp [stopped] at ran
  · obtain rfl := (every budget fewer).symm.trans ran
    cases ends with
    | error failed => exact ⟨outcomes, path, fewer, failed, every⟩

/-! ## The laws of budgets -/

/--
A run succeeds exactly if the path of its length exists, and fails exactly with the
error of the first step that fails, at the end of the path before it; so runs in
turn end like one run. A run until idle that succeeds leaves what a run of its
cycles leaves, and a stop at idle or an error is the same under every budget that
reaches it.
-/
theorem runs_along_path (simulator : Simulator) :
    (∀ cycles summary final,
      simulator.run cycles = (.ok summary, final) ↔
        summary = ⟨cycles, .cycleBudget⟩ ∧
          ∃ outcomes, Path simulator outcomes final ∧ outcomes.length = cycles) ∧
    (∀ cycles error final,
      simulator.run cycles = (.error error, final) ↔
        ∃ outcomes,
          Path simulator outcomes final ∧
            outcomes.length < cycles ∧
            final.step = (.error error, final)) ∧
    (∀ first second,
      EndAlike (simulator.runInTurn first second) (simulator.run (first + second))) ∧
    (∀ budget summary final,
      simulator.runUntilIdle budget = (.ok summary, final) →
        simulator.run summary.cycles = (.ok ⟨summary.cycles, .cycleBudget⟩, final)) ∧
    (∀ budget cycles final,
      simulator.runUntilIdle budget = (.ok ⟨cycles, .idle⟩, final) →
        cycles ≤ budget ∧
          ∀ other ≥ cycles,
            simulator.runUntilIdle other = (.ok ⟨cycles, .idle⟩, final)) ∧
    (∀ budget error final,
      simulator.runUntilIdle budget = (.error error, final) →
        ∃ outcomes,
          Path simulator outcomes final ∧
            outcomes.length < budget ∧
            final.step = (.error error, final) ∧
            ∀ other > outcomes.length,
              simulator.runUntilIdle other = (.error error, final)) := by
  refine ⟨?_, ?_, ?_, ?_, ?_, ?_⟩
  · intro cycles summary final
    exact run_eq_ok_iff_path
  · intro cycles error final
    exact run_eq_error_iff_path
  · intro first second
    exact simulator.runInTurn_endAlike first second
  · intro budget summary final ran
    obtain ⟨outcomes, path, sameLength⟩ := path_of_runUntilIdle_ok ran
    rw [← sameLength]
    exact path.run
  · intro budget cycles final ran
    exact runUntilIdle_idle_of_le ran
  · intro budget error final ran
    exact runUntilIdle_error_of_lt ran

/-- A program that branches to itself. -/
def standstill : Simulator :=
  .new (.ofInstructions [.beq .zero .zero 0xFFFF]) { memoryWords := 0 }

/-- A program whose second instruction loads from an address that is not aligned. -/
def misalignedLoad : Simulator :=
  .new
    (.ofInstructions [.addi ⟨8⟩ .zero 1, .lw ⟨9⟩ ⟨8⟩ 0])
    { memoryWords := 1 }

/--
Under every budget that reaches it, the second step of the one program is a stop at
idle, and that of the other one is a fault.
-/
theorem standstill_and_misalignedLoad_end_at_second_step :
    (∃ final,
      final.machine.pc = 0 ∧
        final.machine.counters.cycles = 2 ∧
        ∀ budget ≥ 2, standstill.runUntilIdle budget = (.ok ⟨2, .idle⟩, final)) ∧
      ∃ final,
        final.machine.pc = 4 ∧
          ∀ budget ≥ 2,
            misalignedLoad.runUntilIdle budget =
              (.error (.access ⟨1, .load, .misaligned⟩), final) := by
  constructor
  · have stopped :
        standstill.runUntilIdle 2 = (.ok ⟨2, .idle⟩, (standstill.runUntilIdle 2).2) := by
      rfl
    obtain ⟨_, _, _, _, idle, _⟩ := runs_along_path standstill
    exact ⟨(standstill.runUntilIdle 2).2, rfl, rfl, (idle 2 2 _ stopped).2⟩
  · have failed :
        misalignedLoad.runUntilIdle 2 =
          (.error (.access ⟨1, .load, .misaligned⟩), (misalignedLoad.runUntilIdle 2).2) := by
      rfl
    obtain ⟨_, _, _, _, _, fails⟩ := runs_along_path misalignedLoad
    obtain ⟨outcomes, _, early, _, every⟩ := fails 2 _ _ failed
    refine ⟨(misalignedLoad.runUntilIdle 2).2, rfl, ?_⟩
    intro budget enough
    exact every budget (Nat.lt_of_lt_of_le early enough)

end TinyMips.Simulator
