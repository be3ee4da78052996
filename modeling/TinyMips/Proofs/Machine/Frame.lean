import TinyMips.Proofs.Machine.Effect

namespace TinyMips

/-!
# All else stays

An effect names one register or one word of memory at most. When it takes place,
that register or word gets the new value, every other one stays as it was, and the
program counter moves on or goes to the target of a taken branch.
-/

/-- Registers with the same number are the same. -/
theorem Reg.index_inj
    {first second : Reg} :
    first.index = second.index ↔ first = second := by
  constructor
  · intro sameIndex
    cases first
    cases second
    exact congrArg Reg.mk (BitVec.eq_of_toNat_eq sameIndex)
  · rintro rfl
    rfl

theorem Reg.isZero_eq_false_iff
    {reg : Reg} :
    reg.isZero = false ↔ reg ≠ .zero := by
  simp [Reg.isZero]

namespace RegisterFile

/-- The word that a register file holds for a register, also for register zero. -/
def cell (file : RegisterFile) (reg : Reg) : Word :=
  file.cells.get ⟨reg.index, reg.index_lt⟩

/-- Except for the zero register, what is read is the cell. -/
theorem read_eq_cell
    (file : RegisterFile)
    {reg : Reg}
    (nonzero : reg ≠ .zero) :
    file.read reg = file.cell reg := by
  simp [read, cell, Reg.isZero_eq_false_iff.mpr nonzero]

/-- A write changes the cell of its register and no other. -/
theorem cell_write
    (file : RegisterFile)
    {reg : Reg}
    (nonzero : reg ≠ .zero)
    (value : Word)
    (other : Reg) :
    (file.write reg value).cell other = if other = reg then value else file.cell other := by
  have written :
      (file.write reg value).cell other =
        if reg.index = other.index then value else file.cell other := by
    simp only [write, Reg.isZero_eq_false_iff.mpr nonzero, Bool.false_eq_true, ↓reduceIte]
    exact Vector.getElem_set reg.index_lt other.index_lt
  simpa only [Reg.index_inj, @eq_comm Reg reg other] using written

end RegisterFile

namespace Memory

/-- A store does not change the size of the memory. -/
theorem size_store
    (memory : Memory)
    (address value : Word) :
    (memory.store address value).size = memory.size := by
  simp [size, store]

/-- A store changes the word at its address and no other. -/
theorem word_store_of_ne
    (memory : Memory)
    {address : Word}
    (value : Word)
    {index : Nat}
    (elsewhere : index ≠ address.index) :
    (memory.store address value).word index = memory.word index := by
  simp [word, store, Array.getElem?_setIfInBounds_ne elsewhere.symm]

end Memory

/-! ## What an effect says of the machine before and after it -/

/-- The value that an effect reports is new in one place, and every other place is unchanged. -/
def Effect.Changes (before after : Machine) : Effect → Prop
  | .registerWrite reg old new =>
      reg ≠ .zero ∧
        before.registers.read reg = old ∧
        after.registers.read reg = new ∧
        (∀ other, other ≠ reg → after.registers.cell other = before.registers.cell other) ∧
        after.memory = before.memory
  | .memoryWrite address old new =>
      ∃ index < before.memory.size,
        address.toNat = 4 * index ∧
          before.memory.word index = old ∧
          after.memory.word index = new ∧
          after.memory.size = before.memory.size ∧
          (∀ other, other ≠ index → after.memory.word other = before.memory.word other) ∧
          after.registers = before.registers
  | .discarded _ | .branch .. =>
      after.registers = before.registers ∧ after.memory = before.memory

/-- An effect is the whole difference between a machine and the one after it. -/
structure Effect.Accounts (effect : Effect) (before after : Machine) : Prop where
  pc :
    after.pc.toNat =
      match effect with
      | .branch true target => target.toNat
      | _ => (before.pc.toNat + 4) % 0x100000000
  values : effect.Changes before after
  changes :
    effect.changesState = true ↔
      after.registers ≠ before.registers ∨ after.memory ≠ before.memory

namespace Machine

/-- The program counter goes to the target of a taken branch, else on by four. -/
theorem toNat_next
    (effect : Effect)
    (pc : Word) :
    (effect.next pc).toNat =
      match effect with
      | .branch true target => target.toNat
      | _ => (pc.toNat + 4) % 0x100000000 := by
  cases effect with
  | registerWrite reg before after => exact BitVec.toNat_add pc 4
  | discarded value => exact BitVec.toNat_add pc 4
  | memoryWrite address before after => exact BitVec.toNat_add pc 4
  | branch taken target =>
      cases taken with
      | true => rfl
      | false => exact BitVec.toNat_add pc 4

/-- An effect changes the state exactly if it leaves other registers or another memory. -/
theorem changesState_eq_true_iff
    {machine : Machine}
    {effect : Effect}
    (describes : machine.Describes effect) :
    effect.changesState = true ↔
      registersAfter machine.registers effect ≠ machine.registers ∨
        memoryAfter machine.memory effect ≠ machine.memory := by
  rw [← Bool.not_eq_false, changesState_eq_false_iff describes, Classical.not_and_iff_not_or_not]

/-- An effect that is about a machine changes there what it says. -/
theorem changes_of_describes
    {machine : Machine}
    {effect : Effect}
    (describes : machine.Describes effect)
    (instruction : Instruction) :
    effect.Changes machine (machine.apply instruction effect) := by
  cases effect with
  | registerWrite reg old new =>
      obtain ⟨notZero, sameOld⟩ := describes
      have nonzero : reg ≠ .zero := Reg.isZero_eq_false_iff.mp notZero
      refine ⟨nonzero, sameOld.symm, ?_, ?_, rfl⟩
      · exact machine.registers.read_write notZero new
      · intro other different
        exact (machine.registers.cell_write nonzero new other).trans (if_neg different)
  | discarded value =>
      exact ⟨rfl, rfl⟩
  | memoryWrite address old new =>
      obtain ⟨inside, sameOld⟩ := describes
      obtain ⟨aligned, bound⟩ := Memory.fault?_eq_none_iff.mp inside
      have whole : address.toNat = 4 * address.index := by
        simp only [Word.isAligned, decide_eq_true_eq] at aligned
        simp only [Word.index]
        omega
      refine ⟨address.index, bound, whole, sameOld.symm, ?_, ?_, ?_, rfl⟩
      · exact Memory.word_store inside new
      · exact machine.memory.size_store address new
      · intro other elsewhere
        exact machine.memory.word_store_of_ne new elsewhere
  | branch taken target =>
      exact ⟨rfl, rfl⟩

/-- An effect that is about a machine accounts for all that it does there. -/
theorem accounts_of_describes
    {machine : Machine}
    {effect : Effect}
    (describes : machine.Describes effect)
    (instruction : Instruction) :
    effect.Accounts machine (machine.apply instruction effect) where
  pc := toNat_next effect machine.pc
  values := changes_of_describes describes instruction
  changes := changesState_eq_true_iff describes

end Machine

end TinyMips
