import TinyMips.Proofs.Simulation.Budget
import TinyMips.Proofs.Simulation.Call

namespace TinyMips

/-!
# Reachable simulators

A new simulator is used by calls and may be started anew at a label. Whatever the
calls are, and whether they succeed or fail, each of them other than a reset goes
along a path of steps. So what a new simulator, a step that succeeds, a reset and a
start at a label all keep holds of every simulator that can be reached.
-/

namespace Simulator

/-! ## The steps of a call -/

/-- The cycles that a run until idle is over in; one that fails is not over in its budget. -/
def cyclesUntilIdle (simulator : Simulator) (budget : Nat) : Nat :=
  match (simulator.runUntilIdle budget).1 with
  | .ok summary => summary.cycles
  | .error _ => budget

/--
The outcomes of all steps that succeeded since the last reset, once a call is answered,
if `earlier` are those before it.
-/
def recorded (simulator : Simulator) (earlier : List StepOutcome) : Call → List StepOutcome
  | .step => earlier ++ simulator.history 1
  | .run cycles => earlier ++ simulator.history cycles
  | .runUntilIdle budget => earlier ++ simulator.history (simulator.cyclesUntilIdle budget)
  | .reset => []

/-- A step that succeeds is a path of its own, and one that fails goes nowhere. -/
theorem path_of_step (simulator : Simulator) :
    Path simulator (simulator.history 1) simulator.step.2 := by
  cases stepped : simulator.step with
  | mk result next =>
      cases result with
      | error error =>
          obtain rfl := eq_of_step_error stepped
          rw [(Path.nil next).history_of_step_error stepped Nat.one_pos]
          exact .nil next
      | ok outcome =>
          have path : Path simulator [outcome] next := .cons stepped (.nil next)
          rw [← List.length_singleton (a := outcome), path.history_length]
          exact path

/-- A run follows a path. -/
theorem path_of_run
    (simulator : Simulator)
    (cycles : Nat) :
    Path simulator (simulator.history cycles) (simulator.run cycles).2 := by
  cases ran : simulator.run cycles with
  | mk result final =>
      cases result with
      | error error =>
          obtain ⟨outcomes, path, fewer, failed⟩ := run_eq_error_iff_path.mp ran
          rw [path.history_of_step_error failed fewer]
          exact path
      | ok summary =>
          obtain ⟨_, outcomes, path, rfl⟩ := run_eq_ok_iff_path.mp ran
          rw [path.history_length]
          exact path

theorem path_of_runUntilIdle
    (simulator : Simulator)
    (budget : Nat) :
    Path simulator (simulator.history (simulator.cyclesUntilIdle budget))
      (simulator.runUntilIdle budget).2 := by
  cases ran : simulator.runUntilIdle budget with
  | mk result final =>
      cases result with
      | error error =>
          obtain ⟨outcomes, path, fewer, failed, _⟩ := runUntilIdle_error_of_lt ran
          rw [cyclesUntilIdle, ran, path.history_of_step_error failed fewer]
          exact path
      | ok summary =>
          obtain ⟨outcomes, path, sameLength⟩ := path_of_runUntilIdle_ok ran
          simp only [cyclesUntilIdle, ran, ← sameLength, path.history_length]
          exact path

/-- A call resets the simulator, or it goes along the path of the steps that it records. -/
theorem respond_cases
    (simulator : Simulator)
    (call : Call) :
    ((simulator.respond call).2 = simulator.reset ∧
      ∀ earlier, simulator.recorded earlier call = []) ∨
    ∃ outcomes,
      Path simulator outcomes (simulator.respond call).2 ∧
        ∀ earlier, simulator.recorded earlier call = earlier ++ outcomes := by
  cases call with
  | step => exact .inr ⟨_, simulator.path_of_step, fun _ => rfl⟩
  | run cycles => exact .inr ⟨_, simulator.path_of_run cycles, fun _ => rfl⟩
  | runUntilIdle budget => exact .inr ⟨_, simulator.path_of_runUntilIdle budget, fun _ => rfl⟩
  | reset => exact .inl ⟨rfl, fun _ => rfl⟩

/-! ## Everything that can be reached -/

/--
A simulator that a new one becomes by calls and by starts at labels, with the outcomes
of all steps that succeeded since it was new or last reset.
-/
inductive Reached (program : Program) (config : Config) :
    Simulator → List StepOutcome → Prop where
  | new :
      Reached program config (.new program config) []
  | call
      {simulator : Simulator}
      {outcomes : List StepOutcome}
      (reached : Reached program config simulator outcomes)
      (call : Call) :
      Reached program config (simulator.respond call).2 (simulator.recorded outcomes call)
  | entry
      {simulator next : Simulator}
      {outcomes : List StepOutcome}
      {label : Text}
      (reached : Reached program config simulator outcomes)
      (entered : simulator.withEntry? label = some next) :
      Reached program config next outcomes

/-- What one step keeps is kept along a path. -/
theorem Path.keeps
    {invariant : Simulator → List StepOutcome → Prop}
    (step :
      ∀ {simulator next : Simulator} {outcome : StepOutcome} {earlier : List StepOutcome},
        invariant simulator earlier →
        simulator.step = (.ok outcome, next) →
        invariant next (earlier ++ [outcome]))
    {simulator final : Simulator}
    {earlier outcomes : List StepOutcome}
    (path : Path simulator outcomes final)
    (holds : invariant simulator earlier) :
    invariant final (earlier ++ outcomes) := by
  induction path generalizing earlier with
  | nil simulator =>
      rwa [List.append_nil]
  | cons stepped _ inductionHypothesis =>
      have later := inductionHypothesis (step holds stepped)
      rwa [List.append_assoc] at later

/--
What holds of a new simulator and is kept by steps, resets and starts at labels holds
of every simulator that can be reached.
-/
@[elab_as_elim]
theorem Reached.keeps
    {program : Program}
    {config : Config}
    {motive : Simulator → List StepOutcome → Prop}
    (new : motive (.new program config) [])
    (step :
      ∀ {simulator next : Simulator} {outcome : StepOutcome} {earlier : List StepOutcome},
        motive simulator earlier →
        simulator.step = (.ok outcome, next) →
        motive next (earlier ++ [outcome]))
    (reset :
      ∀ {simulator : Simulator} {earlier : List StepOutcome},
        motive simulator earlier →
        motive simulator.reset [])
    (entry :
      ∀ {simulator next : Simulator} {earlier : List StepOutcome} {label : Text},
        motive simulator earlier →
        simulator.withEntry? label = some next →
        motive next earlier)
    {simulator : Simulator}
    {outcomes : List StepOutcome}
    (reached : Reached program config simulator outcomes) :
    motive simulator outcomes := by
  induction reached with
  | new =>
      exact new
  | @call simulator outcomes _ call inductionHypothesis =>
      rcases simulator.respond_cases call with ⟨answered, forgets⟩ | ⟨more, path, records⟩
      · rw [answered, forgets]
        exact reset inductionHypothesis
      · rw [records]
        exact path.keeps step inductionHypothesis
  | entry _ entered inductionHypothesis =>
      exact entry inductionHypothesis entered

/--
A program with every class of instructions, one of them behind a label, whose last
instruction is always refused.
-/
def faltering : Program :=
  { Program.ofInstructions
      [.addi ⟨8⟩ .zero 4, .sw ⟨8⟩ ⟨8⟩ 0, .beq .zero ⟨8⟩ 1, .lw .zero ⟨8⟩ 0, .beq .zero .zero 0,
        .lw ⟨9⟩ ⟨8⟩ 1] with
    symbols := ⟨[(Text.ofString "again", ⟨1, 2⟩)]⟩ }

/-- The simulator of that program that has run into its last instruction. -/
def faltered : Simulator :=
  ((Simulator.new faltering { memoryWords := 2 }).respond (.run 100)).2

/-- That simulator at the label. -/
def resumed : Simulator :=
  { faltered with machine := faltered.machine.startAt 4 }

theorem reached_resumed :
    Reached faltering { memoryWords := 2 } resumed
      ((Simulator.new faltering { memoryWords := 2 }).history 100) := by
  have entered : faltered.withEntry? (Text.ofString "again") = some resumed := by
    rfl
  exact .entry (.call .new (.run 100)) entered

end Simulator

end TinyMips
