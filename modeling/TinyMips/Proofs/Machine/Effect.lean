import TinyMips.Machine.Execution

namespace TinyMips

/-!
# Effects tell what they do

An effect that evaluation finds carries the value that its place holds before it,
and it is never refused afterwards. So an execution fails exactly if evaluation
fails, and the effect alone shows whether a register or a memory word gets a new
value.
-/

namespace RegisterFile

/-- A register other than the zero register reads as what was written to it. -/
theorem read_write
    (file : RegisterFile)
    {reg : Reg}
    (nonzero : reg.isZero = false)
    (value : Word) :
    (file.write reg value).read reg = value := by
  simp only [read, write, nonzero, Bool.false_eq_true, ↓reduceIte]
  exact Vector.getElem_set_self reg.index_lt

/-- Writing the value that a register reads changes nothing. -/
theorem write_read
    (file : RegisterFile)
    (reg : Reg) :
    file.write reg (file.read reg) = file := by
  unfold write read
  split
  · rfl
  · simp [Vector.get]

end RegisterFile

namespace Memory

/-- An access is fine exactly if its address is that of a word inside the memory. -/
theorem fault?_eq_none_iff
    {size : Nat}
    {address : Word} :
    fault? size address = none ↔ address.isAligned = true ∧ address.index < size := by
  cases aligned : address.isAligned with
  | false =>
      simp [fault?, aligned]
  | true =>
      simp [fault?, aligned]

/-- A store within the memory leaves the stored word in its place. -/
theorem word_store
    {memory : Memory}
    {address : Word}
    (inside : fault? memory.size address = none)
    (value : Word) :
    (memory.store address value).word address.index = value := by
  have bound : address.index < memory.cells.size :=
    (fault?_eq_none_iff.mp inside).2
  simp [word, store, bound]

/-- Storing the word that an address holds changes nothing. -/
theorem store_word
    (memory : Memory)
    (address : Word) :
    memory.store address (memory.word address.index) = memory := by
  have same :
      memory.cells.setIfInBounds address.index (memory.cells.getD address.index 0) =
        memory.cells := by
    apply Array.ext_getElem?
    intro index
    rw [Array.getElem?_setIfInBounds]
    split
    · subst index
      split <;> simp_all
    · rfl
  exact congrArg Memory.mk same

end Memory

namespace Machine

/-- Fetching looks at the program counter alone. -/
theorem fetch_congr
    {first second : Machine}
    (samePc : first.pc = second.pc)
    (program : Array Instruction) :
    first.fetch program = second.fetch program := by
  simp [fetch, samePc]

/-- The effect of a result depends on the registers only. -/
theorem resultEffect_congr
    {first second : Machine}
    (sameRegisters : first.registers = second.registers) :
    first.resultEffect = second.resultEffect := by
  funext destination value
  simp [resultEffect, sameRegisters]

/-- Evaluation looks at the registers, the memory and the program counter alone. -/
theorem evaluate_congr
    {first second : Machine}
    (sameRegisters : first.registers = second.registers)
    (sameMemory : first.memory = second.memory)
    (samePc : first.pc = second.pc)
    (instruction : Instruction) :
    first.evaluate instruction = second.evaluate instruction := by
  cases instruction <;>
    simp [evaluate, resultEffect_congr sameRegisters, load, storeTarget,
      effectiveAddress, sameRegisters, sameMemory, samePc]

/--
An effect is about the machine as it is: a written register is not register zero,
a written address is that of a word, and the value before is the one held there.
-/
def Describes (machine : Machine) : Effect → Prop
  | .registerWrite reg before _ =>
      reg.isZero = false ∧ before = machine.registers.read reg
  | .memoryWrite address before _ =>
      Memory.fault? machine.memory.size address = none ∧
        before = machine.memory.word address.index
  | .discarded _ => True
  | .branch .. => True

/-- The effect of a result describes what it overwrites. -/
theorem describes_resultEffect
    (machine : Machine)
    (destination : Reg)
    (value : Word) :
    machine.Describes (machine.resultEffect destination value) := by
  unfold resultEffect
  split
  · trivial
  · rename_i notZero
    exact ⟨by simpa using notZero, rfl⟩

/-- The target of a store lies in the memory, with the word that stands there. -/
theorem storeTarget_ok
    {machine : Machine}
    {base : Reg}
    {offset : Half}
    {address before : Word}
    (found : machine.storeTarget base offset = .ok (address, before)) :
    Memory.fault? machine.memory.size address = none ∧
      before = machine.memory.word address.index := by
  unfold storeTarget at found
  cases inside :
      Memory.fault? machine.memory.size (machine.effectiveAddress base offset) with
  | some fault =>
      simp [Memory.check, inside] at found
  | none =>
      simp only [Memory.check, inside, Except.ok.injEq, Prod.mk.injEq] at found
      obtain ⟨rfl, rfl⟩ := found
      exact ⟨inside, rfl⟩

/--
What evaluation can find: arithmetic and loads have a result for a register, a store
writes the word at its target, and a branch goes a number of instructions from the
next one.
-/
theorem evaluate_cases
    {machine : Machine}
    {instruction : Instruction}
    {effect : Effect}
    (evaluated : machine.evaluate instruction = .ok effect) :
    (∃ destination value,
      (instruction.category = .alu ∨ instruction.category = .load) ∧
        effect = machine.resultEffect destination value) ∨
    (∃ base offset address before after,
      instruction.category = .store ∧
        machine.storeTarget base offset = .ok (address, before) ∧
        effect = .memoryWrite address before after) ∨
    ∃ taken offset,
      instruction.category = .branch ∧
        effect = .branch taken (machine.pc + 4 + 4 * Half.signExtended offset) := by
  cases instruction with
  | and rd rs rt =>
      exact .inl ⟨rd, _, .inl rfl, (Except.ok.inj evaluated).symm⟩
  | slt rd rs rt =>
      exact .inl ⟨rd, _, .inl rfl, (Except.ok.inj evaluated).symm⟩
  | addi rt rs imm =>
      exact .inl ⟨rt, _, .inl rfl, (Except.ok.inj evaluated).symm⟩
  | lui rt imm =>
      exact .inl ⟨rt, _, .inl rfl, (Except.ok.inj evaluated).symm⟩
  | lw rt base offset =>
      simp only [evaluate] at evaluated
      cases loaded : machine.load base offset with
      | error error =>
          simp [loaded, Except.map] at evaluated
      | ok value =>
          rw [loaded] at evaluated
          exact .inl ⟨rt, value, .inr rfl, (Except.ok.inj evaluated).symm⟩
  | sw rt base offset =>
      simp only [evaluate] at evaluated
      cases targeted : machine.storeTarget base offset with
      | error error =>
          simp [targeted, Except.map] at evaluated
      | ok target =>
          obtain ⟨address, before⟩ := target
          rw [targeted] at evaluated
          exact .inr (.inl ⟨base, offset, address, before, _, rfl, targeted,
            (Except.ok.inj evaluated).symm⟩)
  | beq rs rt offset =>
      exact .inr (.inr ⟨_, offset, rfl, (Except.ok.inj evaluated).symm⟩)

/-- Evaluation only finds effects that are about the machine. -/
theorem describes_of_evaluate
    {machine : Machine}
    {instruction : Instruction}
    {effect : Effect}
    (evaluated : machine.evaluate instruction = .ok effect) :
    machine.Describes effect := by
  rcases evaluate_cases evaluated with
    ⟨destination, value, _, rfl⟩ | ⟨base, offset, address, before, after, _, targeted, rfl⟩ |
    ⟨taken, offset, _, rfl⟩
  · exact machine.describes_resultEffect destination value
  · exact storeTarget_ok targeted
  · trivial

/-- Nothing keeps an effect that is about the machine from taking place. -/
theorem refusal?_of_describes
    {machine : Machine}
    {effect : Effect}
    (describes : machine.Describes effect) :
    machine.refusal? effect = none := by
  cases effect with
  | registerWrite reg before after => rfl
  | discarded value => rfl
  | memoryWrite address before after =>
      simp [refusal?, describes.1]
  | branch taken target => rfl

/-- An instruction that evaluates is executed, and its effect takes place. -/
theorem execute_of_evaluate_ok
    {machine : Machine}
    {instruction : Instruction}
    {effect : Effect}
    (evaluated : machine.evaluate instruction = .ok effect) :
    machine.execute instruction = (.ok effect, machine.apply instruction effect) := by
  have accepted : machine.refusal? effect = none :=
    refusal?_of_describes (describes_of_evaluate evaluated)
  simp [execute, evaluated, commit, accepted, Except.map]

/-- An instruction that does not evaluate leaves the machine as it was. -/
theorem execute_of_evaluate_error
    {machine : Machine}
    {instruction : Instruction}
    {error : ExecutionError}
    (evaluated : machine.evaluate instruction = .error error) :
    machine.execute instruction = (.error error, machine) := by
  simp [execute, evaluated]

/-- The effect says that nothing changes exactly if registers and memory stay as they are. -/
theorem changesState_eq_false_iff
    {machine : Machine}
    {effect : Effect}
    (describes : machine.Describes effect) :
    effect.changesState = false ↔
      registersAfter machine.registers effect = machine.registers ∧
        memoryAfter machine.memory effect = machine.memory := by
  cases effect with
  | registerWrite reg before after =>
      obtain ⟨nonzero, rfl⟩ := describes
      simp only [Effect.changesState, registersAfter, memoryAfter, and_true]
      constructor
      · intro unchanged
        have same : machine.registers.read reg = after := by
          simpa using unchanged
        rw [← same]
        exact machine.registers.write_read reg
      · intro unchanged
        have written := machine.registers.read_write nonzero after
        rw [unchanged] at written
        simpa using written
  | discarded value =>
      simp [Effect.changesState, registersAfter, memoryAfter]
  | memoryWrite address before after =>
      obtain ⟨inside, rfl⟩ := describes
      simp only [Effect.changesState, registersAfter, memoryAfter, true_and]
      constructor
      · intro unchanged
        have same : machine.memory.word address.index = after := by
          simpa using unchanged
        rw [← same]
        exact machine.memory.store_word address
      · intro unchanged
        have stored := Memory.word_store inside after
        rw [unchanged] at stored
        simpa using stored
  | branch taken target =>
      simp [Effect.changesState, registersAfter, memoryAfter]

end Machine

end TinyMips
