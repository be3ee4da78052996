import TinyMips.Proofs.Machine.Frame
import TinyMips.Proofs.Traversal

namespace TinyMips

/-!
# The architecture in numbers

The seven instructions are described once more by arithmetic on numbers: a state
holds natural numbers below two to the thirty-second, immediates are signed numbers,
and sums are taken modulo two to the thirty-second where they are stored. The values
of a machine follow this description through every instruction, faults included.
-/

namespace Architecture

/-- Why a step of the architecture fails. -/
inductive Fault where
  /-- There is no instruction at the program counter. -/
  | fetch (pc : Nat)
  /-- The address of a load or store is refused. -/
  | access (address : Nat) (access : Access) (reason : MemoryFault)

/-- Registers, memory words and program counter as numbers. -/
@[ext]
structure State where
  register : Reg → Nat
  /-- The memory word with an index. -/
  word : Nat → Nat
  /-- The number of memory words. -/
  size : Nat
  pc : Nat

/-- A number modulo two to the thirty-second. -/
def wrapped (value : Int) : Nat :=
  (value % 0x100000000).toNat

/-- The signed number that has the same bits, in two's complement. -/
def signed (value : Nat) : Int :=
  if value < 0x80000000 then value else value - 0x100000000

namespace State

/-- What an instruction reads from a register. -/
def value (state : State) (reg : Reg) : Nat :=
  if reg = .zero then 0 else state.register reg

/-- The state with a result in a register; register zero swallows it. -/
def withResult (state : State) (reg : Reg) (result : Nat) : State :=
  if reg = .zero then
    state
  else
    { state with register := fun other => if other = reg then result else state.register other }

/-- The state with another memory word at an index. -/
def withWord (state : State) (index stored : Nat) : State :=
  { state with word := fun other => if other = index then stored else state.word other }

/-- The state with the program counter at the next instruction. -/
def advanced (state : State) : State :=
  { state with pc := wrapped (state.pc + 4) }

/-- The address at a signed offset from a base register. -/
def address (state : State) (base : Reg) (offset : Half) : Nat :=
  wrapped (state.value base + offset.toInt)

/-- Why an address is refused, if it is: alignment counts before the bound. -/
def refusal? (state : State) (address : Nat) (access : Access) : Option Fault :=
  if address % 4 ≠ 0 then
    some (.access address access .misaligned)
  else if 4 * state.size ≤ address then
    some (.access address access .outOfBounds)
  else
    none

/-- The state after an instruction. -/
def execute (state : State) : Instruction → Except Fault State
  | .and rd rs rt =>
      .ok (state.withResult rd (state.value rs &&& state.value rt)).advanced
  | .slt rd rs rt =>
      let less := signed (state.value rs) < signed (state.value rt)
      .ok (state.withResult rd (if less then 1 else 0)).advanced
  | .addi rt rs imm =>
      .ok (state.withResult rt (wrapped (state.value rs + imm.toInt))).advanced
  | .lui rt imm =>
      .ok (state.withResult rt (imm.toNat * 65536)).advanced
  | .lw rt base offset =>
      match state.refusal? (state.address base offset) .load with
      | some fault => .error fault
      | none => .ok (state.withResult rt (state.word (state.address base offset / 4))).advanced
  | .sw rt base offset =>
      match state.refusal? (state.address base offset) .store with
      | some fault => .error fault
      | none => .ok (state.withWord (state.address base offset / 4) (state.value rt)).advanced
  | .beq rs rt offset =>
      if state.value rs = state.value rt then
        .ok { state with pc := wrapped (state.pc + 4 + 4 * offset.toInt) }
      else
        .ok state.advanced

/-- The instruction at the program counter. -/
def fetch (state : State) (program : Array Instruction) : Except Fault Instruction :=
  if refused : state.pc % 4 ≠ 0 ∨ 4 * program.size ≤ state.pc then
    .error (.fetch state.pc)
  else
    have inside : state.pc / 4 < program.size := by omega
    .ok program[state.pc / 4]

/-- The state after the instruction at the program counter. -/
def step (state : State) (program : Array Instruction) : Except Fault State :=
  match state.fetch program with
  | .error fault => .error fault
  | .ok instruction => state.execute instruction

end State

/-! ## Words as numbers -/

/-- The word of an integer is the integer wrapped around. -/
theorem toNat_ofInt (value : Int) :
    (BitVec.ofInt 32 value).toNat = wrapped value := by
  simp [wrapped, BitVec.toNat_ofInt]

theorem ofInt_toNat (word : Word) :
    BitVec.ofInt 32 word.toNat = word := by
  rw [BitVec.ofInt_natCast, BitVec.ofNat_toNat, BitVec.setWidth_eq]

/-- Adding a signed half to a word is adding integers and wrapping around. -/
theorem toNat_add_signExtended
    (word : Word)
    (half : Half) :
    (word + half.signExtended).toNat = wrapped (word.toNat + half.toInt) := by
  rw [← toNat_ofInt, BitVec.ofInt_add, ofInt_toNat]
  rfl

theorem toNat_add_four (word : Word) :
    (word + 4).toNat = wrapped (word.toNat + 4) := by
  rw [← toNat_ofInt, BitVec.ofInt_add, ofInt_toNat]
  rfl

/-- A branch goes its distance in words from the next instruction, wrapping around. -/
theorem toNat_branchTarget
    (pc : Word)
    (offset : Half) :
    (pc + 4 + 4 * offset.signExtended).toNat = wrapped (pc.toNat + 4 + 4 * offset.toInt) := by
  rw [← toNat_ofInt, BitVec.ofInt_add, BitVec.ofInt_add, BitVec.ofInt_mul, ofInt_toNat]
  rfl

/-- The signed reading of a word is that of the reference. -/
theorem toInt_eq_signed (word : Word) :
    word.toInt = signed word.toNat := by
  rw [BitVec.toInt_eq_toNat_cond, signed]
  split <;> split <;> omega

/-- Words are compared by their signed readings. -/
theorem toNat_slt
    (first second : Word) :
    (Alu.result .slt first second).toNat =
      if signed first.toNat < signed second.toNat then 1 else 0 := by
  simp only [Alu.result, BitVec.slt, toInt_eq_signed, decide_eq_true_eq]
  split <;> rfl

/-- Shifting a half up is multiplying it by two to the sixteen. -/
theorem toNat_upper (half : Half) :
    (Alu.result .sll (half.setWidth 32) 16).toNat = half.toNat * 65536 := by
  have small := half.isLt
  simp only [Alu.result, BitVec.toNat_shiftLeft, BitVec.toNat_setWidth, Nat.shiftLeft_eq]
  simp
  omega

end Architecture

/-! ## The values of a machine -/

/-- What a machine holds, in numbers. -/
def Machine.values (machine : Machine) : Architecture.State where
  register reg := (machine.registers.cell reg).toNat
  word index := (machine.memory.word index).toNat
  size := machine.memory.size
  pc := machine.pc.toNat

/-- An execution error as a fault of the architecture. -/
def ExecutionError.toFault : ExecutionError → Architecture.Fault
  | outsideProgram pc => .fetch pc.toNat
  | access error => .access error.address.toNat error.access error.fault

namespace Machine

open Architecture

/-- The reference reads from a register what the machine reads. -/
theorem value_values
    (machine : Machine)
    (reg : Reg) :
    machine.values.value reg = (machine.registers.read reg).toNat := by
  unfold State.value
  split
  · rename_i isZero
    subst isZero
    rfl
  · rename_i nonzero
    rw [machine.registers.read_eq_cell nonzero]
    rfl

/-- The reference computes the effective address of the machine. -/
theorem address_values
    (machine : Machine)
    (base : Reg)
    (offset : Half) :
    machine.values.address base offset = (machine.effectiveAddress base offset).toNat := by
  rw [State.address, value_values, ← toNat_add_signExtended]
  rfl

/-- The reference refuses an address exactly where the machine finds a fault. -/
theorem refusal?_values
    (machine : Machine)
    (address : Word)
    (access : Access) :
    machine.values.refusal? address.toNat access =
      (Memory.fault? machine.memory.size address).map (.access address.toNat access) := by
  have sameBound :
      machine.memory.size ≤ address.toNat / 4 ↔ 4 * machine.memory.size ≤ address.toNat := by
    omega
  simp only [State.refusal?, Memory.fault?, Word.isAligned, Word.index, values]
  by_cases aligned : address.toNat % 4 = 0
  · by_cases outside : 4 * machine.memory.size ≤ address.toNat
    · simp [aligned, outside, sameBound]
    · simp [aligned, outside, sameBound]
  · simp [aligned]

/-- A result takes place in the values as it does in the machine. -/
theorem values_apply_resultEffect
    (machine : Machine)
    (instruction : Instruction)
    (destination : Reg)
    (result : Word) :
    (machine.apply instruction (machine.resultEffect destination result)).values =
      (machine.values.withResult destination result.toNat).advanced := by
  have pcAdvances := toNat_add_four machine.pc
  by_cases isZero : destination = .zero
  · subst isZero
    exact congrArg (fun pc => { machine.values with pc }) pcAdvances
  · have written :
        machine.resultEffect destination result =
          .registerWrite destination (machine.registers.read destination) result := by
      simp [resultEffect, Reg.isZero_eq_false_iff.mpr isZero]
    rw [written, State.withResult, if_neg isZero]
    apply State.ext
    · funext other
      simp only [values, apply, registersAfter, machine.registers.cell_write isZero,
        State.advanced]
      split <;> rfl
    · rfl
    · rfl
    · exact pcAdvances

/-- A store takes place in the values as it does in the machine. -/
theorem values_apply_memoryWrite
    (machine : Machine)
    (instruction : Instruction)
    {address : Word}
    (inside : Memory.fault? machine.memory.size address = none)
    (old new : Word) :
    (machine.apply instruction (.memoryWrite address old new)).values =
      (machine.values.withWord (address.toNat / 4) new.toNat).advanced := by
  apply State.ext
  · rfl
  · funext other
    simp only [values, apply, memoryAfter, State.withWord, State.advanced]
    split
    · rename_i there
      rw [there, ← Word.index, Memory.word_store inside]
    · rename_i elsewhere
      rw [machine.memory.word_store_of_ne new elsewhere]
  · exact machine.memory.size_store address new
  · exact toNat_add_four machine.pc

/-- A decided branch takes place in the values as it does in the machine. -/
theorem values_apply_branch
    (machine : Machine)
    (instruction : Instruction)
    (taken : Bool)
    (target : Word) :
    (machine.apply instruction (.branch taken target)).values =
      if taken then { machine.values with pc := target.toNat } else machine.values.advanced := by
  cases taken with
  | true => rfl
  | false => exact congrArg (fun pc => { machine.values with pc }) (toNat_add_four machine.pc)

/-- What an instruction does to a machine is what the architecture says of its values. -/
def Follows (machine : Machine) (instruction : Instruction) : Except Fault State → Prop
  | .ok state =>
      ∃ effect,
        machine.evaluate instruction = .ok effect ∧
          (machine.apply instruction effect).values = state
  | .error fault =>
      ∃ error,
        machine.evaluate instruction = .error error ∧ error.toFault = fault

/-- An instruction with a register result follows the reference if the results are the same. -/
theorem follows_of_result
    {machine : Machine}
    {instruction : Instruction}
    {destination : Reg}
    {result : Word}
    {value : Nat}
    (evaluated :
      machine.evaluate instruction = .ok (machine.resultEffect destination result))
    (sameValue : value = result.toNat) :
    machine.Follows instruction
      (.ok (machine.values.withResult destination value).advanced) :=
  ⟨_, evaluated, sameValue ▸ machine.values_apply_resultEffect instruction destination result⟩

/-- A load follows the reference, with its faults. -/
theorem follows_load
    (machine : Machine)
    (rt base : Reg)
    (offset : Half) :
    machine.Follows (.lw rt base offset) (machine.values.execute (.lw rt base offset)) := by
  simp only [State.execute, address_values, refusal?_values]
  cases refused : Memory.fault? machine.memory.size (machine.effectiveAddress base offset) with
  | some reason =>
      refine ⟨.access ⟨machine.effectiveAddress base offset, .load, reason⟩, ?_, rfl⟩
      simp [evaluate, load, Memory.read, Memory.check, refused, Except.map, Except.mapError]
  | none =>
      have evaluated :
          machine.evaluate (.lw rt base offset) =
            .ok (machine.resultEffect rt
              (machine.memory.word (machine.effectiveAddress base offset).index)) := by
        simp [evaluate, load, Memory.read, Memory.check, refused, Except.map, Except.mapError]
      exact follows_of_result evaluated rfl

theorem follows_store
    (machine : Machine)
    (rt base : Reg)
    (offset : Half) :
    machine.Follows (.sw rt base offset) (machine.values.execute (.sw rt base offset)) := by
  simp only [State.execute, address_values, refusal?_values, value_values]
  cases refused : Memory.fault? machine.memory.size (machine.effectiveAddress base offset) with
  | some reason =>
      refine ⟨.access ⟨machine.effectiveAddress base offset, .store, reason⟩, ?_, rfl⟩
      simp [evaluate, storeTarget, Memory.check, refused, Except.map]
  | none =>
      refine ⟨.memoryWrite (machine.effectiveAddress base offset)
        (machine.memory.word (machine.effectiveAddress base offset).index)
        (machine.registers.read rt), ?_, ?_⟩
      · simp [evaluate, storeTarget, Memory.check, refused, Except.map]
      · exact machine.values_apply_memoryWrite _ refused _ _

/-- A branch follows the reference, taken or not. -/
theorem follows_branch
    (machine : Machine)
    (rs rt : Reg)
    (offset : Half) :
    machine.Follows (.beq rs rt offset) (machine.values.execute (.beq rs rt offset)) := by
  simp only [State.execute, value_values, BitVec.toNat_inj]
  split
  · rename_i equal
    refine ⟨_, rfl, (machine.values_apply_branch _ _ _).trans ?_⟩
    rw [if_pos (decide_eq_true equal)]
    exact congrArg (fun pc => { machine.values with pc })
      (toNat_branchTarget machine.pc offset)
  · rename_i different
    refine ⟨_, rfl, (machine.values_apply_branch _ _ _).trans ?_⟩
    rw [if_neg (by simpa using different)]

/-- Every instruction follows the architecture. -/
theorem follows_execute
    (machine : Machine)
    (instruction : Instruction) :
    machine.Follows instruction (machine.values.execute instruction) := by
  cases instruction with
  | and rd rs rt =>
      refine follows_of_result rfl ?_
      rw [value_values, value_values]
      exact (BitVec.toNat_and _ _).symm
  | slt rd rs rt =>
      refine follows_of_result rfl ?_
      rw [toNat_slt, value_values, value_values]
  | addi rt rs imm =>
      refine follows_of_result rfl ?_
      rw [value_values]
      exact (toNat_add_signExtended _ _).symm
  | lui rt imm =>
      exact follows_of_result rfl (toNat_upper imm).symm
  | lw rt base offset =>
      exact machine.follows_load rt base offset
  | sw rt base offset =>
      exact machine.follows_store rt base offset
  | beq rs rt offset =>
      exact machine.follows_branch rs rt offset

/-- The architecture finds the same instruction at the program counter, or fails with it. -/
theorem fetch_values
    (machine : Machine)
    (program : Array Instruction) :
    machine.values.fetch program = (machine.fetch program).mapError ExecutionError.toFault := by
  have address : machine.pc.toNat = machine.values.pc := rfl
  unfold State.fetch fetch
  split
  · rename_i refused
    split
    · rename_i aligned
      have beyond : program[machine.pc.index]? = none := by
        simp only [Word.isAligned, decide_eq_true_eq] at aligned
        simp only [Array.getElem?_eq_none_iff, Word.index]
        omega
      rw [beyond]
      rfl
    · rfl
  · rename_i accepted
    have aligned : machine.pc.isAligned = true := by
      simp only [Word.isAligned, decide_eq_true_eq]
      omega
    have inside : machine.values.pc / 4 < program.size := by
      omega
    have found : program[machine.pc.index]? = some program[machine.values.pc / 4] :=
      Array.getElem?_eq_getElem inside
    rw [if_pos aligned, found]
    rfl

end Machine

end TinyMips
