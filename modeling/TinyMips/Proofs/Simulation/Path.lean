import TinyMips.Proofs.Simulation.Step

namespace TinyMips.Simulator

/-!
# Paths

A path is a sequence of steps that all succeed, with what each of them did. The
steps of a simulator are determined, so there is one path of each length at most;
taking a number of steps goes along it, to its end or to the first step that fails.
-/

/-- Steps that succeed one after the other, with their outcomes. -/
inductive Path : Simulator → List StepOutcome → Simulator → Prop where
  | nil (simulator : Simulator) :
      Path simulator [] simulator
  | cons
      {simulator next final : Simulator}
      {outcome : StepOutcome}
      {outcomes : List StepOutcome}
      (stepped : simulator.step = (.ok outcome, next))
      (rest : Path next outcomes final) :
      Path simulator (outcome :: outcomes) final

namespace Path

/-- Two paths that meet make one. -/
theorem append
    {simulator middle final : Simulator}
    {first second : List StepOutcome}
    (leading : Path simulator first middle)
    (trailing : Path middle second final) :
    Path simulator (first ++ second) final := by
  induction leading with
  | nil simulator =>
      exact trailing
  | cons stepped _ inductionHypothesis =>
      exact .cons stepped (inductionHypothesis trailing)

/-- A path can be parted anywhere. -/
theorem split
    {simulator final : Simulator}
    {first second : List StepOutcome}
    (path : Path simulator (first ++ second) final) :
    ∃ middle, Path simulator first middle ∧ Path middle second final := by
  induction first generalizing simulator with
  | nil =>
      exact ⟨simulator, .nil simulator, path⟩
  | cons outcome first inductionHypothesis =>
      cases path with
      | cons stepped rest =>
          obtain ⟨middle, leading, trailing⟩ := inductionHypothesis rest
          exact ⟨middle, .cons stepped leading, trailing⟩

/-- There is one path of each length at most. -/
theorem unique
    {simulator final otherFinal : Simulator}
    {outcomes others : List StepOutcome}
    (path : Path simulator outcomes final)
    (other : Path simulator others otherFinal)
    (sameLength : outcomes.length = others.length) :
    outcomes = others ∧ final = otherFinal := by
  induction path generalizing others with
  | nil simulator =>
      cases other with
      | nil => exact ⟨rfl, rfl⟩
      | cons => simp at sameLength
  | cons stepped _ inductionHypothesis =>
      cases other with
      | nil => simp at sameLength
      | cons otherStepped otherRest =>
          obtain ⟨sameOutcome, rfl⟩ := Prod.mk.inj (stepped.symm.trans otherStepped)
          obtain rfl := Except.ok.inj sameOutcome
          obtain ⟨rfl, rfl⟩ :=
            inductionHypothesis otherRest (by simpa using sameLength)
          exact ⟨rfl, rfl⟩

/-- The program stays the same along a path. -/
theorem program
    {simulator final : Simulator}
    {outcomes : List StepOutcome}
    (path : Path simulator outcomes final) :
    final.program = simulator.program := by
  induction path with
  | nil simulator =>
      rfl
  | cons stepped _ inductionHypothesis =>
      obtain ⟨_, _, _, rfl⟩ := step_eq_ok_iff.mp stepped
      exact inductionHypothesis

/-- Taking more steps than a path has goes along the path first. -/
theorem steps_add
    {simulator final : Simulator}
    {outcomes : List StepOutcome}
    (path : Path simulator outcomes final)
    (count : Nat) :
    steps (outcomes.length + count) simulator = steps count final := by
  induction path with
  | nil simulator =>
      rw [List.length_nil, Nat.zero_add]
  | cons stepped _ inductionHypothesis =>
      rw [List.length_cons, Nat.add_right_comm, steps_succ_of_ok stepped]
      exact inductionHypothesis

/-- A path is taken in as many steps as it has outcomes. -/
theorem steps_length
    {simulator final : Simulator}
    {outcomes : List StepOutcome}
    (path : Path simulator outcomes final) :
    steps outcomes.length simulator = (none, final) :=
  path.steps_add 0

/-- Taking steps past a path whose end cannot step fails there. -/
theorem steps_of_step_error
    {simulator final : Simulator}
    {outcomes : List StepOutcome}
    {error : ExecutionError}
    {count : Nat}
    (path : Path simulator outcomes final)
    (failed : final.step = (.error error, final))
    (more : outcomes.length < count) :
    steps count simulator = (some error, final) := by
  obtain ⟨left, rfl⟩ := Nat.exists_eq_add_of_lt more
  rw [Nat.add_assoc, path.steps_add, steps_succ_of_error failed]

/-- The outcomes of more steps than a path has begin with those of the path. -/
theorem outcomes_add
    {simulator final : Simulator}
    {outcomes : List StepOutcome}
    (path : Path simulator outcomes final)
    (earlier : List StepOutcome)
    (count : Nat) :
    Simulator.outcomes earlier (outcomes.length + count) simulator =
      Simulator.outcomes (outcomes.reverse ++ earlier) count final := by
  induction path generalizing earlier with
  | nil simulator =>
      rw [List.length_nil, Nat.zero_add]
      rfl
  | cons stepped _ inductionHypothesis =>
      rw [List.length_cons, Nat.add_right_comm, Simulator.outcomes, stepped]
      simp only [inductionHypothesis, List.reverse_cons, List.append_assoc, List.singleton_append]

/-- The history of as many steps as a path has are the outcomes along it. -/
theorem history_length
    {simulator final : Simulator}
    {outcomes : List StepOutcome}
    (path : Path simulator outcomes final) :
    simulator.history outcomes.length = outcomes := by
  have along := path.outcomes_add [] 0
  rw [history]
  simpa only [Nat.add_zero, Simulator.outcomes, List.append_nil, List.reverse_reverse] using along

/-- The history of a run that fails are the outcomes before its end. -/
theorem history_of_step_error
    {simulator final : Simulator}
    {outcomes : List StepOutcome}
    {error : ExecutionError}
    {count : Nat}
    (path : Path simulator outcomes final)
    (failed : final.step = (.error error, final))
    (more : outcomes.length < count) :
    simulator.history count = outcomes := by
  obtain ⟨left, rfl⟩ := Nat.exists_eq_add_of_lt more
  rw [history, Nat.add_assoc, path.outcomes_add, Simulator.outcomes, failed]
  simp

end Path

/--
The first steps all succeed, or one of them is the first to fail: taking them goes
along a path to the last simulator that was reached.
-/
theorem exists_path
    (simulator : Simulator)
    (count : Nat) :
    ∃ outcomes final,
      Path simulator outcomes final ∧
        (outcomes.length = count ∨
          outcomes.length < count ∧
            ∃ error, final.step = (.error error, final)) := by
  induction count generalizing simulator with
  | zero =>
      exact ⟨[], simulator, .nil simulator, .inl rfl⟩
  | succ count inductionHypothesis =>
      cases stepped : simulator.step with
      | mk result next =>
          cases result with
          | error error =>
              obtain rfl := eq_of_step_error stepped
              exact ⟨[], next, .nil next, .inr ⟨Nat.succ_pos count, error, stepped⟩⟩
          | ok outcome =>
              obtain ⟨outcomes, final, path, ends⟩ := inductionHypothesis next
              refine ⟨outcome :: outcomes, final, .cons stepped path, ?_⟩
              simpa only [List.length_cons, Nat.add_right_cancel_iff, Nat.add_lt_add_iff_right]
                using ends

/-- A number of steps succeeds exactly if there is a path of that length. -/
theorem steps_eq_none_iff
    {simulator final : Simulator}
    {count : Nat} :
    steps count simulator = (none, final) ↔
      ∃ outcomes, Path simulator outcomes final ∧ outcomes.length = count := by
  constructor
  · intro taken
    obtain ⟨outcomes, reached, path, sameLength | ⟨fewer, error, failed⟩⟩ :=
      simulator.exists_path count
    · subst sameLength
      obtain rfl : reached = final :=
        (Prod.mk.inj (path.steps_length.symm.trans taken)).2
      exact ⟨outcomes, path, rfl⟩
    · simp [path.steps_of_step_error failed fewer] at taken
  · rintro ⟨outcomes, path, rfl⟩
    exact path.steps_length

/-- A number of steps fails exactly if a shorter path ends where the next step fails. -/
theorem steps_eq_some_iff
    {simulator final : Simulator}
    {count : Nat}
    {error : ExecutionError} :
    steps count simulator = (some error, final) ↔
      ∃ outcomes,
        Path simulator outcomes final ∧
          outcomes.length < count ∧
          final.step = (.error error, final) := by
  constructor
  · intro taken
    obtain ⟨outcomes, reached, path, sameLength | ⟨fewer, other, failed⟩⟩ :=
      simulator.exists_path count
    · simp [← sameLength, path.steps_length] at taken
    · rw [path.steps_of_step_error failed fewer] at taken
      obtain ⟨sameError, rfl⟩ := Prod.mk.inj taken
      obtain rfl := Option.some.inj sameError
      exact ⟨outcomes, path, fewer, failed⟩
  · rintro ⟨outcomes, path, fewer, failed⟩
    exact path.steps_of_step_error failed fewer

end TinyMips.Simulator
