import TinyMips.Proofs.Machine.Dump
import TinyMips.Proofs.Machine.Memory
import TinyMips.Proofs.Simulation.Sound

namespace TinyMips

/-!
# State listings

The state that a simulator shows is complete. Words past the last byte address are never
written, so no address of a word that is not zero wraps around: the snapshot, whose
addresses are words, and the printed state, whose addresses are numbers, list the same.
-/

namespace Word

/-- The address of an index has that index, if there is an address for it. -/
theorem index_ofIndex
    {index : Nat}
    (near : index < 0x40000000) :
    (ofIndex index).index = index := by
  rw [Word.index, toNat_ofIndex near]
  omega

/-- An aligned address is that of the word it points into. -/
theorem ofIndex_index
    {address : Word}
    (aligned : address.toNat % 4 = 0) :
    ofIndex address.index = address := by
  apply BitVec.eq_of_toNat_eq
  rw [toNat_ofIndex address.index_lt, Word.index]
  omega

end Word

namespace Memory

/-- Beyond the end of the memory, every word is zero. -/
theorem lt_size_of_word_ne_zero
    {memory : Memory}
    {index : Nat}
    (nonzero : memory.word index ≠ 0) :
    index < memory.size := by
  by_contra outside
  have past : memory.cells.size ≤ index := by
    simpa [size] using outside
  exact nonzero (by simp [word, past])

/-- Reading succeeds inside the memory, and finds the word. -/
theorem read_eq_ok_iff
    {memory : Memory}
    {address value : Word} :
    memory.read address = .ok value ↔
      Inside memory.size address ∧ memory.word address.index = value := by
  rw [inside_iff, read, check]
  cases fault? memory.size address <;> simp [Except.map]

end Memory

/-- The entries of a printed state that says what a snapshot says. -/
def Snapshot.entries (snapshot : Snapshot) : List Dump.Entry :=
  .pc snapshot.pc ::
    (Dump.table (fun reg => snapshot.register reg.index) ++
      snapshot.nonzeroMemory.map fun (address, value) => .memory address.toNat value)

namespace Machine

/-- The snapshot lists the nonzero words under their addresses. -/
theorem nonzeroMemory_snapshot (machine : Machine) :
    machine.snapshot.nonzeroMemory =
      machine.memory.nonzero.map fun (index, value) => (Word.ofIndex index, value) := by
  simp [Snapshot.nonzeroMemory, Memory.nonzero, Machine.snapshot]

namespace Sound

variable {config : Config} {machine : Machine}

/-- In a sound machine, every nonzero word has an address. -/
theorem near_of_mem_nonzero
    (sound : machine.Sound config)
    {index : Nat}
    {value : Word}
    (listed : (index, value) ∈ machine.memory.nonzero) :
    index < 0x40000000 := by
  by_contra far
  obtain ⟨nonzero, found⟩ := Memory.mem_nonzero_iff.mp listed
  exact nonzero (found.symm.trans (sound.farWords index (by omega)))

/-- No address in a snapshot has wrapped around. -/
theorem map_nonzeroMemory
    {α : Type}
    (sound : machine.Sound config)
    (shown : Nat → Word → α) :
    (machine.snapshot.nonzeroMemory.map fun (address, value) => shown address.toNat value) =
      machine.memory.nonzero.map fun (index, value) => shown (4 * index) value := by
  rw [nonzeroMemory_snapshot, List.map_map]
  refine List.map_congr_left fun ⟨index, value⟩ listed => ?_
  simp [Word.toNat_ofIndex (sound.near_of_mem_nonzero listed)]

/-- The addresses in a snapshot increase. -/
theorem pairwise_nonzeroMemory
    (sound : machine.Sound config) :
    machine.snapshot.nonzeroMemory.Pairwise fun first second =>
      first.1.toNat < second.1.toNat := by
  rw [nonzeroMemory_snapshot, List.pairwise_map]
  refine machine.memory.pairwise_nonzero.imp_of_mem ?_
  rintro ⟨index, value⟩ ⟨later, laterValue⟩ listed laterListed less
  rw [Word.toNat_ofIndex (sound.near_of_mem_nonzero listed),
    Word.toNat_ofIndex (sound.near_of_mem_nonzero laterListed)]
  exact Nat.mul_lt_mul_of_pos_left less (by decide)

/-- A snapshot lists what can be read and is not zero. -/
theorem mem_nonzeroMemory_iff
    (sound : machine.Sound config)
    {address value : Word} :
    (address, value) ∈ machine.snapshot.nonzeroMemory ↔
      value ≠ 0 ∧ machine.memory.read address = .ok value := by
  rw [nonzeroMemory_snapshot, Memory.read_eq_ok_iff]
  constructor
  · intro shown
    obtain ⟨⟨index, word⟩, listed, same⟩ := List.mem_map.mp shown
    obtain ⟨rfl, rfl⟩ := Prod.mk.inj same
    have near := sound.near_of_mem_nonzero listed
    obtain ⟨nonzero, found⟩ := Memory.mem_nonzero_iff.mp listed
    have inside := Memory.lt_size_of_word_ne_zero (found ▸ nonzero)
    refine ⟨nonzero, ⟨?_, ?_⟩, by rwa [Word.index_ofIndex near]⟩
    · exact Word.isAligned_iff.mp (Word.isAligned_ofIndex index)
    · rwa [← Word.index, Word.index_ofIndex near]
  · rintro ⟨nonzero, ⟨aligned, _⟩, found⟩
    have listed := Memory.mem_nonzero_iff.mpr ⟨nonzero, found⟩
    exact List.mem_map.mpr ⟨_, listed, congrArg (·, value) (Word.ofIndex_index aligned)⟩

/-- What is not listed and inside the memory reads zero. -/
theorem read_of_not_mem_nonzeroMemory
    (sound : machine.Sound config)
    {address : Word}
    (inside : Memory.Inside config.memoryWords address)
    (unlisted : address ∉ machine.snapshot.nonzeroMemory.map Prod.fst) :
    machine.memory.read address = .ok 0 := by
  rw [← sound.memorySize] at inside
  refine Memory.read_eq_ok_iff.mpr ⟨inside, ?_⟩
  by_contra nonzero
  have found := Memory.read_eq_ok_iff.mpr ⟨inside, rfl⟩
  exact unlisted (List.mem_map.mpr ⟨_, sound.mem_nonzeroMemory_iff.mpr ⟨nonzero, found⟩, rfl⟩)

/-- In a sound machine, registers read as the snapshot shows them. -/
theorem read_eq_register_snapshot
    (sound : machine.Sound config) :
    machine.registers.read = fun reg => machine.snapshot.register reg.index := by
  rw [RegisterFile.read_of_zeroCell sound.zeroCell]
  exact (funext machine.register_snapshot).symm

/-- The printed state and the snapshot of a machine say the same. -/
theorem entries_eq
    (sound : machine.Sound config) :
    Dump.entries machine = machine.snapshot.entries := by
  rw [Dump.entries, Snapshot.entries, sound.read_eq_register_snapshot,
    sound.map_nonzeroMemory Dump.Entry.memory]
  rfl

/-- Machines with memories of the same size that are printed alike are in the same state. -/
theorem snapshot_eq_of_dump_eq
    {otherConfig : Config}
    {other : Machine}
    (sound : machine.Sound config)
    (otherSound : other.Sound otherConfig)
    (sameSize : config.memoryWords = otherConfig.memoryWords)
    (sameDump : machine.dump = other.dump) :
    machine.snapshot = other.snapshot := by
  obtain ⟨samePc, sameRead, sameNonzero⟩ := Dump.eq_of_dump_eq sameDump
  have sameMemory : machine.memory = other.memory := by
    refine Memory.eq_of_nonzero ?_ sameNonzero
    rw [sound.memorySize, otherSound.memorySize, sameSize]
  have sameCells : machine.registers.cells = other.registers.cells := by
    rw [RegisterFile.read_of_zeroCell sound.zeroCell,
      RegisterFile.read_of_zeroCell otherSound.zeroCell] at sameRead
    have sameList : machine.registers.toList = other.registers.toList := by
      rw [RegisterFile.toList_eq_map_cell, RegisterFile.toList_eq_map_cell, sameRead]
    exact Vector.toList_inj.mp sameList
  rw [Machine.snapshot, Machine.snapshot, samePc, sameCells, sameMemory]

end Sound

end Machine

namespace Simulator

/-- What a simulator with a configuration shows of its state is all of it. -/
structure ListsState (config : Config) (simulator : Simulator) : Prop where
  increasing :
    simulator.snapshot.nonzeroMemory.Pairwise fun first second => first.1.toNat < second.1.toNat
  /-- Four times the index of a word that is not zero is its address; it is never cut off. -/
  addresses :
    (simulator.snapshot.nonzeroMemory.map fun (address, value) => (address.toNat, value)) =
      simulator.machine.memory.nonzero.map fun (index, value) => (4 * index, value)
  listed :
    ∀ address value,
      (address, value) ∈ simulator.snapshot.nonzeroMemory ↔
        value ≠ 0 ∧ simulator.machine.memory.read address = .ok value
  unlisted :
    ∀ address,
      Memory.Inside config.memoryWords address →
        address ∉ simulator.snapshot.nonzeroMemory.map Prod.fst →
          simulator.machine.memory.read address = .ok 0
  /-- The rows of the printed state are those of the snapshot, in the same order. -/
  rows :
    simulator.machine.dump.rows =
      simulator.snapshot.entries.map Dump.Entry.text
  /-- No row can be taken for another one. -/
  readBack :
    Dump.read simulator.machine.dump = simulator.snapshot.entries.map some

/-- A simulator with a sound machine shows all of its state. -/
theorem listsState_of_machine
    {config : Config}
    {simulator : Simulator}
    (sound : simulator.machine.Sound config) :
    simulator.ListsState config where
  increasing := sound.pairwise_nonzeroMemory
  addresses := sound.map_nonzeroMemory Prod.mk
  listed := fun _ _ => sound.mem_nonzeroMemory_iff
  unlisted := fun _ => sound.read_of_not_mem_nonzeroMemory
  rows := by
    rw [Dump.rows_dump, sound.entries_eq]
    rfl
  readBack := by
    rw [Dump.read_dump, sound.entries_eq]
    rfl

/--
Whatever calls have been made, the snapshot and the printed state of a simulator list all
of its state; and simulators with memories of the same size that are printed alike have
the same program counter, registers and memory, also if their programs differ.
-/
theorem listings_show_state
    {program : Program}
    {config : Config}
    {simulator : Simulator}
    {outcomes : List StepOutcome}
    (reached : Reached program config simulator outcomes) :
    simulator.ListsState config ∧
      ∀ (otherProgram : Program) (otherConfig : Config) (other : Simulator)
        (otherOutcomes : List StepOutcome),
        Reached otherProgram otherConfig other otherOutcomes →
          config.memoryWords = otherConfig.memoryWords →
            simulator.machine.dump = other.machine.dump →
              simulator.snapshot = other.snapshot := by
  obtain ⟨_, sound⟩ := reached.machine_sound
  refine ⟨listsState_of_machine sound, ?_⟩
  intro otherProgram otherConfig other otherOutcomes otherReached sameSize sameDump
  obtain ⟨_, otherSound⟩ := otherReached.machine_sound
  exact sound.snapshot_eq_of_dump_eq otherSound sameSize sameDump

/-- The word that was stored is listed, the other one is zero, and a start at a label shows. -/
theorem resumed_lists_state :
    resumed.snapshot.nonzeroMemory = [(4, 4)] ∧
      resumed.machine.memory.read 4 = .ok 4 ∧
      resumed.machine.memory.read 0 = .ok 0 ∧
      Text.ofString "mem[0x0004] = 0x00000004" ∈ resumed.machine.dump.rows ∧
      resumed.machine.dump ≠ faltered.machine.dump := by
  obtain ⟨lists, decides⟩ := listings_show_state reached_resumed
  have shown : resumed.snapshot.nonzeroMemory = [(4, 4)] := by
    decide +kernel
  refine ⟨shown, ?stored, ?untouched, ?printed, ?different⟩
  case stored =>
    exact ((lists.listed 4 4).mp (by simp [shown])).2
  case untouched =>
    exact lists.unlisted 0 ⟨rfl, by decide⟩ (by simp [shown])
  case printed =>
    rw [lists.rows]
    refine List.mem_map.mpr ⟨.memory 4 4, ?_, by decide +kernel⟩
    simp [Snapshot.entries, shown]
  case different =>
    intro sameDump
    have reached : Reached faltering { memoryWords := 2 } faltered _ := .call .new (.run 100)
    have same := decides _ _ _ _ reached rfl sameDump
    exact absurd (congrArg Snapshot.pc same) (by decide +kernel)

end Simulator

end TinyMips
