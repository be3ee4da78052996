import TinyMips.Machine.Report
import TinyMips.Proofs.Simulation.Reached

namespace TinyMips

/-!
# Counters account for the steps

Part of the counters go by the effect of a step and part by the class of its
instruction. An instruction has effects that go with its class only, so the two parts
fit together, and each counter is the number of steps of its kind since the last reset.
-/

/-! ## Kinds of effects -/

/-- What the counters tell apart of an effect. -/
inductive Effect.Kind where
  /-- A register other than register zero is written. -/
  | registerWrite
  /-- A result for register zero is dropped. -/
  | discarded
  /-- A word of memory is written. -/
  | memoryWrite
  /-- A branch is decided. -/
  | branch (taken : Bool)
  deriving DecidableEq, Repr

/-- The kind of an effect. -/
def Effect.kind : Effect → Kind
  | .registerWrite .. => .registerWrite
  | .discarded _ => .discarded
  | .memoryWrite .. => .memoryWrite
  | .branch taken _ => .branch taken

/-- The kinds of effects that go with a class of instructions. -/
def InstructionClass.admits : InstructionClass → Effect.Kind → Prop
  | .alu, kind | .load, kind => kind = .registerWrite ∨ kind = .discarded
  | .store, kind => kind = .memoryWrite
  | .branch, kind => ∃ taken, kind = .branch taken

/-- A register result is written or discarded. -/
theorem Machine.kind_resultEffect
    (machine : Machine)
    (destination : Reg)
    (value : Word) :
    (machine.resultEffect destination value).kind = .registerWrite ∨
      (machine.resultEffect destination value).kind = .discarded := by
  unfold resultEffect
  split
  · exact .inr rfl
  · exact .inl rfl

/-- An instruction only has effects that go with its class. -/
theorem Machine.admits_of_evaluate
    {machine : Machine}
    {instruction : Instruction}
    {effect : Effect}
    (evaluated : machine.evaluate instruction = .ok effect) :
    instruction.category.admits effect.kind := by
  rcases evaluate_cases evaluated with
    ⟨destination, value, isAlu | isLoad, rfl⟩ |
    ⟨base, offset, address, before, after, isStore, _, rfl⟩ |
    ⟨taken, offset, isBranch, rfl⟩
  · rw [isAlu]
    exact machine.kind_resultEffect destination value
  · rw [isLoad]
    exact machine.kind_resultEffect destination value
  · rw [isStore]
    rfl
  · rw [isBranch]
    exact ⟨taken, rfl⟩

/-! ## Counters that fit together -/

namespace Counters

/-- The relations between counters, whatever has been counted. -/
structure Consistent (counters : Counters) : Prop where
  cycles : counters.cycles = counters.retired
  classes :
    counters.retired =
      counters.alu + counters.loads + counters.stores + counters.branches
  results : counters.registerWrites + counters.zeroWrites = counters.alu + counters.loads
  stores : counters.memoryWrites = counters.stores
  taken : counters.branchesTaken ≤ counters.branches

/-- Counters that fit together still do after an effect that goes with its class. -/
theorem Consistent.retire_count
    {counters : Counters}
    (consistent : counters.Consistent)
    {category : InstructionClass}
    {effect : Effect}
    (admitted : category.admits effect.kind) :
    ((effect.count counters).retire category).Consistent := by
  obtain ⟨cycles, classes, results, stores, taken⟩ := consistent
  cases effect with
  | registerWrite reg before after =>
      cases category <;> simp [InstructionClass.admits, Effect.kind] at admitted
      all_goals constructor <;> simp only [retire, Effect.count] <;> omega
  | discarded value =>
      cases category <;> simp [InstructionClass.admits, Effect.kind] at admitted
      all_goals constructor <;> simp only [retire, Effect.count] <;> omega
  | memoryWrite address before after =>
      cases category <;> simp [InstructionClass.admits, Effect.kind] at admitted
      constructor <;> simp only [retire, Effect.count] <;> omega
  | branch isTaken target =>
      cases category <;> simp [InstructionClass.admits, Effect.kind] at admitted
      cases isTaken <;> constructor <;>
        simp only [retire, Effect.count, Bool.false_eq_true, ↓reduceIte] <;> omega

/-- The outcomes whose instructions are of a class. -/
def ofClass (category : InstructionClass) (outcomes : List StepOutcome) : Nat :=
  outcomes.countP fun outcome => outcome.instruction.category = category

/-- The outcomes whose effects are of a kind. -/
def ofKind (kind : Effect.Kind) (outcomes : List StepOutcome) : Nat :=
  outcomes.countP fun outcome => outcome.effect.kind = kind

/-- The counters of steps with the given outcomes: how many there are of each kind. -/
def ofOutcomes (outcomes : List StepOutcome) : Counters where
  cycles := outcomes.length
  retired := outcomes.length
  alu := ofClass .alu outcomes
  loads := ofClass .load outcomes
  stores := ofClass .store outcomes
  branches := ofClass .branch outcomes
  branchesTaken := ofKind (.branch true) outcomes
  registerWrites := ofKind .registerWrite outcomes
  zeroWrites := ofKind .discarded outcomes
  memoryWrites := ofKind .memoryWrite outcomes

/-- One more outcome is counted as the machine counts it. -/
theorem ofOutcomes_append
    (outcomes : List StepOutcome)
    (outcome : StepOutcome) :
    ofOutcomes (outcomes ++ [outcome]) =
      (outcome.effect.count (ofOutcomes outcomes)).retire outcome.instruction.category := by
  obtain ⟨pc, instruction, effect⟩ := outcome
  cases category : instruction.category <;> rcases effect with _ | _ | _ | ⟨_ | _, _⟩ <;>
    simp [ofOutcomes, ofClass, ofKind, Effect.kind, Effect.count, retire, category]

/-- The counters are those of the outcomes, and each branch among these is taken or not. -/
structure Account (counters : Counters) (outcomes : List StepOutcome) : Prop where
  counted : counters = ofOutcomes outcomes
  consistent : counters.Consistent
  branches : counters.branches = counters.branchesTaken + ofKind (.branch false) outcomes

/-- Fresh counters account for no outcomes. -/
theorem account_nil : Account {} [] where
  counted := rfl
  consistent := by constructor <;> decide
  branches := rfl

/-- A step whose effect goes with the class of its instruction is accounted for. -/
theorem Account.append
    {counters : Counters}
    {outcomes : List StepOutcome}
    (account : counters.Account outcomes)
    {outcome : StepOutcome}
    (admitted : outcome.instruction.category.admits outcome.effect.kind) :
    ((outcome.effect.count counters).retire outcome.instruction.category).Account
      (outcomes ++ [outcome]) where
  counted := by
    rw [ofOutcomes_append, ← account.counted]
  consistent := account.consistent.retire_count admitted
  branches := by
    have branches := account.branches
    obtain ⟨pc, instruction, effect⟩ := outcome
    have last :
        ofKind (.branch false) (outcomes ++ [⟨pc, instruction, effect⟩]) =
          ofKind (.branch false) outcomes + if effect.kind = .branch false then 1 else 0 := by
      simp [ofKind]
    rw [last]
    cases category : instruction.category <;> rcases effect with _ | _ | _ | ⟨_ | _, _⟩ <;>
      simp [InstructionClass.admits, Effect.kind, category] at admitted <;>
      simp [Effect.kind, Effect.count, retire] <;>
      omega

/-- The report's difference is exact as long as the number of branches is one of 64 bits. -/
theorem Account.branchesNotTaken_eq
    {counters : Counters}
    {outcomes : List StepOutcome}
    (account : counters.Account outcomes)
    (bounded : counters.branches < 0x10000000000000000) :
    counters.branchesNotTaken = ofKind (.branch false) outcomes := by
  have branches := account.branches
  rw [branchesNotTaken, BitVec.toNat_sub, BitVec.toNat_ofNat, BitVec.toNat_ofNat]
  omega

end Counters

namespace Simulator

/-- The counters account for the outcomes since the last reset. -/
theorem Reached.account
    {program : Program}
    {config : Config}
    {simulator : Simulator}
    {outcomes : List StepOutcome}
    (reached : Reached program config simulator outcomes) :
    simulator.machine.counters.Account outcomes := by
  refine reached.keeps ?new ?step ?reset ?entry
  case new =>
    exact Counters.account_nil
  case step =>
    intro simulator next outcome earlier account stepped
    obtain ⟨_, evaluated, _, rfl⟩ := step_eq_ok_iff.mp stepped
    exact account.append (Machine.admits_of_evaluate evaluated)
  case reset =>
    intro simulator earlier _
    exact Counters.account_nil
  case entry =>
    intro simulator next earlier label account entered
    obtain ⟨address, _, rfl⟩ := Option.map_eq_some_iff.mp entered
    exact account

/--
Whatever calls have been made and however they ended, each counter is the number of
steps of its kind that succeeded since the last reset, the counters fit together, and
what the report takes for the branches that were not taken is their number.
-/
theorem Reached.counters_account
    {program : Program}
    {config : Config}
    {simulator : Simulator}
    {outcomes : List StepOutcome}
    (reached : Reached program config simulator outcomes) :
    simulator.machine.counters = .ofOutcomes outcomes ∧
      simulator.machine.counters.Consistent ∧
      (simulator.machine.counters.cycles < 0x10000000000000000 →
        simulator.machine.counters.branchesNotTaken =
          Counters.ofKind (.branch false) outcomes) := by
  have account := reached.account
  refine ⟨account.counted, account.consistent, fun bounded => ?_⟩
  have classes := account.consistent.classes
  have cycles := account.consistent.cycles
  exact account.branchesNotTaken_eq (by omega)

/--
A run into the refused load, a start at the label and one more step: the store is
counted twice, the load that is refused is not counted.
-/
theorem resumed_counters_account :
    resumed.step.2.machine.counters = ⟨6, 6, 1, 1, 2, 2, 1, 1, 1, 2⟩ ∧
      resumed.step.2.machine.counters.Consistent ∧
      resumed.step.2.machine.counters.branchesNotTaken = 1 := by
  have account := (reached_resumed.call .step).counters_account
  exact ⟨account.1.trans (by decide), account.2.1, account.2.2 (by decide)⟩

end Simulator

end TinyMips
