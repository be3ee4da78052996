import TinyMips.Proofs.Machine.Frame
import TinyMips.Proofs.Simulation.Path
import TinyMips.Simulation.Snapshot

namespace TinyMips

/-!
# Outcomes account for a run

The effects that the steps of a run report say all that the run does to registers,
memory and program counter: each accounts for its own step, and carried out on a
snapshot of the start, one after the other, they give the snapshot of the end.
-/

/-- A snapshot after what one effect reports. -/
def Snapshot.replay (snapshot : Snapshot) : Effect → Snapshot
  | .registerWrite reg _ after =>
      { snapshot with
        pc := snapshot.pc + 4
        registers := snapshot.registers.set reg.index after reg.index_lt }
  | .memoryWrite address _ after =>
      { snapshot with
        pc := snapshot.pc + 4
        memory := snapshot.memory.setIfInBounds (address.toNat / 4) after }
  | .branch true target => { snapshot with pc := target }
  | .branch false _ | .discarded _ => { snapshot with pc := snapshot.pc + 4 }

/-- Replaying an effect on the snapshot shows what applying it to the machine does. -/
theorem Machine.snapshot_apply
    {machine : Machine}
    {effect : Effect}
    (describes : machine.Describes effect)
    (instruction : Instruction) :
    (machine.apply instruction effect).snapshot = machine.snapshot.replay effect := by
  cases effect with
  | registerWrite reg old new =>
      simp [snapshot, apply, registersAfter, memoryAfter, Effect.next, Snapshot.replay,
        RegisterFile.write, describes.1]
  | discarded value =>
      rfl
  | memoryWrite address old new =>
      rfl
  | branch taken target =>
      cases taken with
      | true => rfl
      | false => rfl

namespace Simulator

/-- The effect of a step accounts for all that the step changes. -/
theorem accounts_of_step
    {simulator next : Simulator}
    {outcome : StepOutcome}
    (stepped : simulator.step = (.ok outcome, next)) :
    outcome.effect.Accounts simulator.machine next.machine := by
  obtain ⟨_, evaluated, _, rfl⟩ := step_eq_ok_iff.mp stepped
  exact Machine.accounts_of_describes (Machine.describes_of_evaluate evaluated) _

/-- The snapshot after a step is the replay of its effect. -/
theorem snapshot_of_step
    {simulator next : Simulator}
    {outcome : StepOutcome}
    (stepped : simulator.step = (.ok outcome, next)) :
    next.snapshot = simulator.snapshot.replay outcome.effect := by
  obtain ⟨_, evaluated, _, rfl⟩ := step_eq_ok_iff.mp stepped
  exact Machine.snapshot_apply (Machine.describes_of_evaluate evaluated) _

/-- The snapshot after a path is the replay of its effects, in order. -/
theorem Path.snapshot_eq_replay
    {simulator final : Simulator}
    {outcomes : List StepOutcome}
    (path : Path simulator outcomes final) :
    (outcomes.map StepOutcome.effect).foldl Snapshot.replay simulator.snapshot =
      final.snapshot := by
  induction path with
  | nil simulator =>
      rfl
  | cons stepped _ inductionHypothesis =>
      rw [List.map_cons, List.foldl_cons, ← snapshot_of_step stepped]
      exact inductionHypothesis

/--
Each effect along a path accounts for its own step, and all of them together turn
the snapshot of the start into that of the end.
-/
theorem effects_account_for_path
    {simulator final : Simulator}
    {outcomes : List StepOutcome}
    (path : Path simulator outcomes final) :
    (∀ earlier outcome later,
      outcomes = earlier ++ outcome :: later →
        ∃ before after,
          Path simulator earlier before ∧
            before.step = (.ok outcome, after) ∧
            Path after later final ∧
            outcome.effect.Accounts before.machine after.machine) ∧
      (outcomes.map StepOutcome.effect).foldl Snapshot.replay simulator.snapshot =
        final.snapshot := by
  refine ⟨?_, path.snapshot_eq_replay⟩
  intro earlier outcome later parted
  obtain ⟨before, leading, trailing⟩ := Path.split (parted ▸ path)
  cases trailing with
  | cons stepped rest =>
      exact ⟨before, _, leading, stepped, rest, accounts_of_step stepped⟩

/-- A program that writes a register, a memory word, the same register value again, and branches. -/
def storeAndBranch : Simulator :=
  .new
    (.ofInstructions
      [.addi ⟨8⟩ .zero 4, .sw ⟨8⟩ ⟨8⟩ 0, .addi ⟨8⟩ ⟨8⟩ 0, .beq .zero .zero 0xFFFC])
    { memoryWords := 2 }

/-- Each of its four steps reports its own kind of effect, and together they make up the end. -/
theorem storeAndBranch_replays :
    ∃ outcomes final,
      Path storeAndBranch outcomes final ∧
        outcomes.map StepOutcome.effect =
          [.registerWrite ⟨8⟩ 0 4, .memoryWrite 4 0 4, .registerWrite ⟨8⟩ 4 4,
            .branch true 0] ∧
        (outcomes.map StepOutcome.effect).foldl Snapshot.replay storeAndBranch.snapshot =
          final.snapshot ∧
        final.snapshot.pc = 0 ∧
        final.snapshot.registers.toList = List.replicate 8 0 ++ 4 :: List.replicate 23 0 ∧
        final.snapshot.memory = #[0, 4] := by
  have path :
      Path storeAndBranch
        [⟨0, .addi ⟨8⟩ .zero 4, .registerWrite ⟨8⟩ 0 4⟩,
          ⟨4, .sw ⟨8⟩ ⟨8⟩ 0, .memoryWrite 4 0 4⟩,
          ⟨8, .addi ⟨8⟩ ⟨8⟩ 0, .registerWrite ⟨8⟩ 4 4⟩,
          ⟨12, .beq .zero .zero 0xFFFC, .branch true 0⟩]
        (steps 4 storeAndBranch).2 :=
    .cons rfl (.cons rfl (.cons rfl (.cons rfl (.nil _))))
  exact ⟨_, _, path, rfl, (effects_account_for_path path).2, by decide +kernel,
    by decide +kernel, by decide +kernel⟩

end Simulator

end TinyMips
