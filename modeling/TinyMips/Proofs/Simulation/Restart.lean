import TinyMips.Proofs.Machine.Sound
import TinyMips.Proofs.Simulation.Reached

namespace TinyMips

/-!
# Starting again

Steps change registers, memory words, the program counter and the counters, and a reset
sets all of these back. What a reset keeps, which is the program, the size of the memory,
the start and whether the machine is traced, no step changes. So a reset leads back to
the simulator that was there before the first call, with the entry that it was built with,
and an entry is the same as a configured start.
-/

namespace Memory

/-- Clearing the memory forgets what an effect did to it. -/
theorem clear_memoryAfter
    (memory : Memory)
    (effect : Effect) :
    (Machine.memoryAfter memory effect).clear = memory.clear := by
  cases effect with
  | registerWrite reg before after => rfl
  | discarded value => rfl
  | memoryWrite address before after =>
      exact congrArg zeroed (memory.size_store address after)
  | branch taken target => rfl

theorem clear_clear (memory : Memory) : memory.clear.clear = memory.clear :=
  congrArg zeroed (size_zeroed memory.size)

theorem clear_zeroed (size : Nat) : (zeroed size).clear = zeroed size :=
  congrArg zeroed (size_zeroed size)

end Memory

namespace Machine

/-- An effect that takes place makes no difference to a later reset. -/
theorem reset_apply
    (machine : Machine)
    (instruction : Instruction)
    (effect : Effect) :
    (machine.apply instruction effect).reset = machine.reset := by
  unfold reset apply
  rw [Memory.clear_memoryAfter]

theorem reset_reset (machine : Machine) : machine.reset.reset = machine.reset := by
  unfold reset
  rw [Memory.clear_clear]

/-- A new machine is as a reset would leave it. -/
theorem reset_ofConfig (config : Config) : (ofConfig config).reset = ofConfig config := by
  unfold reset ofConfig
  rw [Memory.clear_zeroed]

/-- A start that is set on a new machine could have been configured. -/
theorem startAt_ofConfig
    (config : Config)
    (address : Word) :
    (ofConfig config).startAt address = ofConfig { config with startAddress := address } :=
  rfl

end Machine

namespace Simulator

/-! ## Calls and a reset -/

/-- A step that succeeds makes no difference to a later reset. -/
theorem reset_of_step
    {simulator next : Simulator}
    {outcome : StepOutcome}
    (stepped : simulator.step = (.ok outcome, next)) :
    next.reset = simulator.reset := by
  obtain ⟨_, _, _, rfl⟩ := step_eq_ok_iff.mp stepped
  exact congrArg (Simulator.mk simulator.program)
    (simulator.machine.reset_apply outcome.instruction outcome.effect)

/-- A reset forgets a whole path. -/
theorem Path.reset
    {simulator final : Simulator}
    {outcomes : List StepOutcome}
    (path : Path simulator outcomes final) :
    final.reset = simulator.reset := by
  induction path with
  | nil simulator =>
      rfl
  | cons stepped _ inductionHypothesis =>
      exact inductionHypothesis.trans (reset_of_step stepped)

/-- No call, whether it succeeds or fails, makes a difference to a later reset. -/
theorem reset_respond
    (simulator : Simulator)
    (call : Call) :
    (simulator.respond call).2.reset = simulator.reset := by
  rcases simulator.respond_cases call with ⟨answered, _⟩ | ⟨outcomes, path, _⟩
  · rw [answered]
    exact congrArg (Simulator.mk simulator.program) simulator.machine.reset_reset
  · exact path.reset

/-- A reset forgets all calls before it. -/
theorem reset_conduct
    (simulator : Simulator)
    (calls : List Call) :
    (conduct calls simulator).2.reset = simulator.reset := by
  induction calls generalizing simulator with
  | nil =>
      rfl
  | cons call calls inductionHypothesis =>
      exact (inductionHypothesis (simulator.respond call).2).trans (simulator.reset_respond call)

/-- Calls may be made in two parts. -/
theorem conduct_append
    (simulator : Simulator)
    (calls later : List Call) :
    conduct (calls ++ later) simulator =
      ((conduct calls simulator).1 ++ (conduct later (conduct calls simulator).2).1,
        (conduct later (conduct calls simulator).2).2) := by
  induction calls generalizing simulator with
  | nil =>
      rfl
  | cons call calls inductionHypothesis =>
      simp only [List.cons_append, conduct, inductionHypothesis]

/-! ## Entries -/

/-- A simulator that is new, and at a label if one is given and the program defines it. -/
def newAt?
    (program : Program)
    (config : Config) :
    Option Text → Option Simulator
  | none => some (new program config)
  | some label => Simulator.withEntry? (new program config) label

/-- A reset does not change a new simulator. -/
theorem reset_new
    (program : Program)
    (config : Config) :
    (new program config).reset = new program config :=
  congrArg (Simulator.mk program) (Machine.reset_ofConfig config)

/-- The configuration that starts a program at a label, if one is given. -/
def configAt
    (program : Program)
    (config : Config)
    (label? : Option Text) :
    Config :=
  match label?.bind program.entryAddress? with
  | none => config
  | some address => { config with startAddress := address }

/-- An entry label moves the start to its address, and changes nothing else. -/
theorem configAt_of_entryAddress?
    {program : Program}
    {label : Text}
    {address : Word}
    (defined : program.entryAddress? label = some address)
    (config : Config) :
    configAt program config (some label) = { config with startAddress := address } := by
  simp [configAt, defined]

/-- A new simulator at a label is one whose configured start is the address of the label. -/
theorem eq_new_of_newAt?
    {program : Program}
    {config : Config}
    {label? : Option Text}
    {start : Simulator}
    (built : newAt? program config label? = some start) :
    start = new program (configAt program config label?) := by
  cases label? with
  | none =>
      exact (Option.some.inj built).symm
  | some label =>
      obtain ⟨address, defined, rfl⟩ := Option.map_eq_some_iff.mp built
      have sameConfig :
          configAt program config (some label) = { config with startAddress := address } :=
        configAt_of_entryAddress? defined config
      rw [sameConfig]
      exact congrArg (Simulator.mk program) (Machine.startAt_ofConfig config address)

/--
A new simulator at an entry is the new simulator that has the address of the entry as its
configured start. Whatever calls are made of it and however they end, a reset leads back to
it, so that all later calls are answered as if there had been none before.
-/
theorem reset_restarts
    {program : Program}
    {config : Config}
    {label? : Option Text}
    {start : Simulator}
    (built : newAt? program config label? = some start) :
    start = new program (configAt program config label?) ∧
      (∀ calls, (conduct calls start).2.reset = start) ∧
      ∀ calls later,
        conduct (calls ++ .reset :: later) start =
          ((conduct calls start).1 ++ .done :: (conduct later start).1,
            (conduct later start).2) := by
  have isNew : start = new program (configAt program config label?) :=
    eq_new_of_newAt? built
  have restarts (calls : List Call) : (conduct calls start).2.reset = start := by
    rw [reset_conduct, isNew]
    exact reset_new program _
  refine ⟨isNew, restarts, ?_⟩
  intro calls later
  rw [conduct_append]
  simp only [conduct, respond, restarts]

/-- The calls of the faltering program, of which the last two fail. -/
def falteringCalls : List Call :=
  [.run 3, .runUntilIdle 9, .step]

/-- The faltering program at its label has moved on after the calls, and is reset to its label. -/
theorem faltering_restarts_at_label :
    ∃ start,
      newAt? faltering { memoryWords := 2 } (some (Text.ofString "again")) = some start ∧
        start = new faltering { memoryWords := 2, startAddress := 4 } ∧
        (conduct falteringCalls start).2 ≠ start ∧
        (conduct falteringCalls start).2.reset = start := by
  have built :
      newAt? faltering { memoryWords := 2 } (some (Text.ofString "again")) =
        some (new faltering { memoryWords := 2, startAddress := 4 }) := by
    rfl
  obtain ⟨_, restarts, _⟩ := reset_restarts built
  exact ⟨_, built, rfl, by decide +kernel, restarts falteringCalls⟩

end Simulator

end TinyMips
