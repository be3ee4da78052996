import TinyMips.Proofs.Machine.Frame

namespace TinyMips

/-!
# Invariants of the machine state

Four facts hold of a new machine and are kept by every effect that takes place, by a
reset and by a start at an aligned address. The cell of register zero is a cell like
any other, and nothing but the guard of writes keeps it zero. Memory cells past the
last byte address can be asked for by a configuration, but no address reaches them.
-/

namespace Word

/-- An address is aligned exactly if four divides it. -/
theorem isAligned_iff
    {address : Word} :
    address.isAligned = true ↔ address.toNat % 4 = 0 := by
  simp [isAligned]

/-- There are no more words than addresses that four divides. -/
theorem index_lt (address : Word) : address.index < 0x40000000 := by
  have bound := address.isLt
  unfold index
  omega

/-- The address of an instruction is aligned, also if it wraps around. -/
theorem isAligned_ofIndex (index : Nat) : (ofIndex index).isAligned = true := by
  rw [isAligned_iff, ofIndex, BitVec.toNat_ofNat]
  omega

/-- The sum of aligned addresses is aligned, wrapped around or not. -/
theorem isAligned_add
    {first second : Word}
    (firstAligned : first.isAligned = true)
    (secondAligned : second.isAligned = true) :
    Word.isAligned (first + second) = true := by
  rw [isAligned_iff] at *
  rw [BitVec.toNat_add]
  omega

/-- Four divides its multiples, wrapped around or not. -/
theorem isAligned_four_mul (word : Word) : Word.isAligned (4 * word) = true := by
  have four : (4 : Word).toNat = 4 := rfl
  rw [isAligned_iff, BitVec.toNat_mul, four]
  omega

end Word

namespace Memory

theorem size_zeroed (size : Nat) : (zeroed size).size = size := by
  simp [Memory.size, zeroed]

theorem word_zeroed
    (size index : Nat) :
    (zeroed size).word index = 0 := by
  simp only [word, zeroed, Array.getD_eq_getD_getElem?, Array.getElem?_replicate]
  split <;> rfl

/-- Memories of one size that hold the same words are the same. -/
theorem eq_of_words
    {first second : Memory}
    (sameSize : first.size = second.size)
    (sameWords : ∀ index < first.size, first.word index = second.word index) :
    first = second := by
  obtain ⟨cells⟩ := first
  obtain ⟨otherCells⟩ := second
  refine congrArg mk (Array.ext sameSize fun index inside otherInside => ?_)
  have same := sameWords index inside
  simpa [word, Array.getD, inside, otherInside] using same

end Memory

namespace Machine

/-- What holds of every machine that a configuration leads to. -/
structure Sound (config : Config) (machine : Machine) : Prop where
  zeroCell : machine.registers.cell .zero = 0
  memorySize : machine.memory.size = config.memoryWords
  farWords : ∀ index ≥ 0x40000000, machine.memory.word index = 0
  aligned :
    config.startAddress.isAligned = true →
      machine.pc.isAligned = true ∧ machine.start.isAligned = true

/-- A fresh machine is sound. -/
theorem sound_ofConfig (config : Config) : (ofConfig config).Sound config where
  zeroCell := by
    rfl
  memorySize := Memory.size_zeroed config.memoryWords
  farWords := fun index _ => Memory.word_zeroed config.memoryWords index
  aligned := fun aligned => ⟨aligned, aligned⟩

namespace Sound

variable {config : Config} {machine : Machine}

theorem reset (sound : machine.Sound config) : machine.reset.Sound config where
  zeroCell := by
    rfl
  memorySize := (Memory.size_zeroed machine.memory.size).trans sound.memorySize
  farWords := fun index _ => Memory.word_zeroed machine.memory.size index
  aligned := fun aligned => ⟨(sound.aligned aligned).2, (sound.aligned aligned).2⟩

/-- A machine may start at any aligned address. -/
theorem startAt
    (sound : machine.Sound config)
    {address : Word}
    (addressAligned : address.isAligned = true) :
    (machine.startAt address).Sound config where
  zeroCell := sound.zeroCell
  memorySize := sound.memorySize
  farWords := sound.farWords
  aligned := fun _ => ⟨addressAligned, addressAligned⟩

/-! ## Effects that take place -/

/-- No effect writes to the cell of the zero register. -/
theorem zeroCell_registersAfter
    (sound : machine.Sound config)
    {effect : Effect}
    (describes : machine.Describes effect) :
    (registersAfter machine.registers effect).cell .zero = 0 := by
  cases effect with
  | registerWrite reg before after =>
      have nonzero : reg ≠ .zero := Reg.isZero_eq_false_iff.mp describes.1
      rw [registersAfter, machine.registers.cell_write nonzero, if_neg nonzero.symm]
      exact sound.zeroCell
  | discarded value => exact sound.zeroCell
  | memoryWrite address before after => exact sound.zeroCell
  | branch taken target => exact sound.zeroCell

/-- No effect changes the size of the memory. -/
theorem memorySize_memoryAfter
    (sound : machine.Sound config)
    (effect : Effect) :
    (memoryAfter machine.memory effect).size = config.memoryWords := by
  cases effect with
  | registerWrite reg before after => exact sound.memorySize
  | discarded value => exact sound.memorySize
  | memoryWrite address before after =>
      exact (machine.memory.size_store address after).trans sound.memorySize
  | branch taken target => exact sound.memorySize

/-- No effect reaches a word that has no address. -/
theorem farWords_memoryAfter
    (sound : machine.Sound config)
    (effect : Effect)
    {index : Nat}
    (far : index ≥ 0x40000000) :
    (memoryAfter machine.memory effect).word index = 0 := by
  cases effect with
  | registerWrite reg before after => exact sound.farWords index far
  | discarded value => exact sound.farWords index far
  | memoryWrite address before after =>
      have elsewhere : index ≠ address.index :=
        Nat.ne_of_gt (Nat.lt_of_lt_of_le address.index_lt far)
      exact (machine.memory.word_store_of_ne after elsewhere).trans (sound.farWords index far)
  | branch taken target => exact sound.farWords index far

end Sound

/-- After a register result, the next instruction follows. -/
theorem next_resultEffect
    (machine : Machine)
    (destination : Reg)
    (value : Word) :
    (machine.resultEffect destination value).next machine.pc = machine.pc + 4 := by
  unfold resultEffect
  split <;> rfl

/-- From an aligned address a step goes to an aligned address. -/
theorem isAligned_next
    {machine : Machine}
    {instruction : Instruction}
    {effect : Effect}
    (evaluated : machine.evaluate instruction = .ok effect)
    (aligned : machine.pc.isAligned = true) :
    (effect.next machine.pc).isAligned = true := by
  have onwards : Word.isAligned (machine.pc + 4) = true :=
    Word.isAligned_add aligned (by decide)
  rcases evaluate_cases evaluated with
    ⟨destination, value, _, rfl⟩ | ⟨base, offset, address, before, after, _, _, rfl⟩ |
    ⟨taken, offset, _, rfl⟩
  · rwa [next_resultEffect]
  · exact onwards
  · cases taken with
    | false => exact onwards
    | true => exact Word.isAligned_add onwards (Word.isAligned_four_mul _)

/-- An effect that evaluation finds keeps a machine sound. -/
theorem Sound.apply
    {config : Config}
    {machine : Machine}
    {instruction : Instruction}
    {effect : Effect}
    (sound : machine.Sound config)
    (evaluated : machine.evaluate instruction = .ok effect) :
    (machine.apply instruction effect).Sound config where
  zeroCell := sound.zeroCell_registersAfter (describes_of_evaluate evaluated)
  memorySize := sound.memorySize_memoryAfter effect
  farWords := fun _ far => sound.farWords_memoryAfter effect far
  aligned := fun aligned =>
    ⟨isAligned_next evaluated (sound.aligned aligned).1, (sound.aligned aligned).2⟩

end Machine

end TinyMips
