import TinyMips.Proofs.Machine.Sound
import TinyMips.Proofs.Simulation.Reached
import TinyMips.Proofs.Traversal
import TinyMips.Simulation.Snapshot

namespace TinyMips

/-!
# Invariants of reachable simulators

Whatever calls have been made and however they ended, the machine is sound. So all
ways to look at the registers show the same values, no access goes past the cells that
there are, and a fetch from an aligned start only fails past the end of the program.
-/

/-! ## Ways to look at the registers -/

namespace RegisterFile

/-- The printed table of registers with the given values. -/
def tableOf (value : Reg → Word) : Text :=
  (inFours Reg.all).flatMap fun row =>
    Text.trimEnd (row.flatMap fun reg =>
      '$' :: Text.padRight 4 reg.name ++ '=' :: (value reg).address ++ [' ', ' ']) ++ ['\n']

/-- Reading is guarded for register zero alone, whose cell is zero anyway. -/
theorem read_of_zeroCell
    {file : RegisterFile}
    (zeroCell : file.cell .zero = 0) :
    file.read = file.cell := by
  funext reg
  by_cases isZero : reg = .zero
  · subst isZero
    exact zeroCell.symm
  · exact file.read_eq_cell isZero

/-- A register file lists its cells in order. -/
theorem toList_eq_map_cell (file : RegisterFile) : file.toList = Reg.all.map file.cell := by
  apply List.ext_getElem
  · simp [toList, Reg.all]
  · intro index inside _
    have bound : index < 32 := by
      simpa [toList] using inside
    simp [toList, Reg.all, cell, Reg.index, Nat.mod_eq_of_lt bound, Vector.get]

end RegisterFile

/-- The snapshot shows the cells of the registers. -/
theorem Machine.register_snapshot
    (machine : Machine)
    (reg : Reg) :
    machine.snapshot.register reg.index = machine.registers.cell reg := by
  change machine.registers.cells.toArray.getD reg.index 0 = machine.registers.cell reg
  simp [Array.getD, reg.index_lt, RegisterFile.cell, Vector.get]

/-! ## Accesses -/

namespace Machine

/-- An access without a fault finds a cell. -/
theorem cells_of_fault?_eq_none
    (memory : Memory)
    {address : Word}
    (inside : Memory.fault? memory.size address = none) :
    memory.cells[address.index]? = some (memory.word address.index) := by
  have bound : address.index < memory.cells.size :=
    (Memory.fault?_eq_none_iff.mp inside).2
  simp [Memory.word, bound]

/-- A load that succeeds has found its word in a cell. -/
theorem cells_of_load
    {machine : Machine}
    {base : Reg}
    {offset : Half}
    {value : Word}
    (loaded : machine.load base offset = .ok value) :
    machine.memory.cells[(machine.effectiveAddress base offset).index]? = some value := by
  unfold load at loaded
  rw [mapError_eq_ok_iff] at loaded
  unfold Memory.read Memory.check at loaded
  cases inside :
      Memory.fault? machine.memory.size (machine.effectiveAddress base offset) with
  | some fault =>
      simp [inside, Except.map] at loaded
  | none =>
      simp only [inside, Except.map, Except.ok.injEq] at loaded
      rw [← loaded]
      exact cells_of_fault?_eq_none machine.memory inside

/-- A store that takes place has found its word in a cell, and has changed that cell. -/
theorem cells_of_memoryWrite
    {machine : Machine}
    {address before after : Word}
    (describes : machine.Describes (.memoryWrite address before after))
    (instruction : Instruction) :
    machine.memory.cells[address.index]? = some before ∧
      (machine.apply instruction (.memoryWrite address before after)).memory.cells[address.index]? =
        some after := by
  obtain ⟨inside, rfl⟩ := describes
  refine ⟨cells_of_fault?_eq_none machine.memory inside, ?_⟩
  have stored := cells_of_fault?_eq_none (machine.memory.store address after)
    (by rwa [Memory.size_store])
  rwa [Memory.word_store inside] at stored

/-- A fetch from an aligned address only fails past the end of the program. -/
theorem fetch_eq_error_iff
    {machine : Machine}
    (aligned : machine.pc.isAligned = true)
    (program : Array Instruction)
    (error : ExecutionError) :
    machine.fetch program = .error error ↔
      error = .outsideProgram machine.pc ∧ 4 * program.size ≤ machine.pc.toNat := by
  have whole : 4 * machine.pc.index = machine.pc.toNat := by
    have remainder := Word.isAligned_iff.mp aligned
    unfold Word.index
    omega
  simp only [fetch, aligned, ↓reduceIte]
  cases found : program[machine.pc.index]? with
  | some instruction =>
      obtain ⟨inside, _⟩ := Array.getElem?_eq_some_iff.mp found
      simp only [reduceCtorEq, false_iff, not_and, Nat.not_le]
      intro _
      omega
  | none =>
      have outside := Array.getElem?_eq_none_iff.mp found
      simp only [Except.error.injEq, eq_comm (a := error), iff_self_and]
      intro _
      omega

end Machine

/-! ## Everything that can be reached -/

namespace Simulator

/-- What holds of every simulator that can be reached with a program and a configuration. -/
structure Sound (program : Program) (config : Config) (simulator : Simulator) : Prop where
  sameProgram : simulator.program = program
  zeroCell : simulator.machine.registers.cell .zero = 0
  list : simulator.machine.registers.toList = Reg.all.map simulator.machine.registers.read
  snapshot :
    ∀ reg : Reg,
      simulator.snapshot.register reg.index = simulator.machine.registers.read reg
  table :
    simulator.machine.registers.table =
      RegisterFile.tableOf fun reg => simulator.snapshot.register reg.index
  memorySize : simulator.machine.memory.size = config.memoryWords
  farWords : ∀ index ≥ 0x40000000, simulator.machine.memory.word index = 0
  /-- What is loaded stands in a cell. -/
  loads :
    ∀ base offset value,
      simulator.machine.load base offset = .ok value →
        simulator.machine.memory.cells[
          (simulator.machine.effectiveAddress base offset).index]? = some value
  /-- What is stored replaces a cell. -/
  stores :
    ∀ pc instruction address before after next,
      simulator.step = (.ok ⟨pc, instruction, .memoryWrite address before after⟩, next) →
        simulator.machine.memory.cells[address.index]? = some before ∧
          next.machine.memory.cells[address.index]? = some after
  /-- An aligned start leads to aligned addresses only, and a fetch to the end of the program. -/
  aligned :
    config.startAddress.isAligned = true →
      simulator.machine.pc.isAligned = true ∧
        ∀ error,
          simulator.machine.fetch program.instructions = .error error ↔
            error = .outsideProgram simulator.machine.pc ∧
              4 * program.size ≤ simulator.machine.pc.toNat

/-- A simulator of the program is sound if its machine is. -/
theorem sound_of_machine
    {config : Config}
    {simulator : Simulator}
    (sound : simulator.machine.Sound config) :
    simulator.Sound simulator.program config where
  sameProgram := rfl
  zeroCell := sound.zeroCell
  list := by
    rw [RegisterFile.read_of_zeroCell sound.zeroCell]
    exact simulator.machine.registers.toList_eq_map_cell
  snapshot := fun reg => by
    rw [RegisterFile.read_of_zeroCell sound.zeroCell]
    exact simulator.machine.register_snapshot reg
  table := by
    have shown :
        (fun reg : Reg => simulator.snapshot.register reg.index) =
          simulator.machine.registers.read := by
      rw [RegisterFile.read_of_zeroCell sound.zeroCell]
      exact funext simulator.machine.register_snapshot
    rw [shown]
    rfl
  memorySize := sound.memorySize
  farWords := sound.farWords
  loads := fun _ _ _ loaded => Machine.cells_of_load loaded
  stores := by
    intro pc instruction address before after next stepped
    obtain ⟨_, evaluated, _, rfl⟩ := step_eq_ok_iff.mp stepped
    exact Machine.cells_of_memoryWrite (Machine.describes_of_evaluate evaluated) instruction
  aligned := fun startAligned =>
    have pcAligned := (sound.aligned startAligned).1
    ⟨pcAligned, Machine.fetch_eq_error_iff pcAligned _⟩

/-- The entry of a label is aligned. -/
theorem isAligned_of_entryAddress?
    {program : Program}
    {label : Text}
    {address : Word}
    (found : program.entryAddress? label = some address) :
    address.isAligned = true := by
  obtain ⟨symbol, _, rfl⟩ := Option.map_eq_some_iff.mp found
  exact Word.isAligned_ofIndex symbol.index

/-- Every simulator that is reached has its program and a sound machine. -/
theorem Reached.machine_sound
    {program : Program}
    {config : Config}
    {simulator : Simulator}
    {outcomes : List StepOutcome}
    (reached : Reached program config simulator outcomes) :
    simulator.program = program ∧ simulator.machine.Sound config := by
  refine reached.keeps ?new ?step ?reset ?entry
  case new =>
    exact ⟨rfl, Machine.sound_ofConfig config⟩
  case step =>
    rintro simulator next outcome earlier ⟨sameProgram, sound⟩ stepped
    obtain ⟨_, evaluated, _, rfl⟩ := step_eq_ok_iff.mp stepped
    exact ⟨sameProgram, sound.apply evaluated⟩
  case reset =>
    rintro simulator earlier ⟨sameProgram, sound⟩
    exact ⟨sameProgram, sound.reset⟩
  case entry =>
    rintro simulator next earlier label ⟨sameProgram, sound⟩ entered
    obtain ⟨address, found, rfl⟩ := Option.map_eq_some_iff.mp entered
    exact ⟨sameProgram, sound.startAt (isAligned_of_entryAddress? found)⟩

/--
Whatever calls have been made and however they ended, the simulator is sound; and all
labels that it can be started at have aligned addresses.
-/
theorem Reached.sound
    {program : Program}
    {config : Config}
    {simulator : Simulator}
    {outcomes : List StepOutcome}
    (reached : Reached program config simulator outcomes) :
    simulator.Sound program config ∧
      ∀ label address, program.entryAddress? label = some address → address.isAligned = true := by
  obtain ⟨rfl, sound⟩ := reached.machine_sound
  exact ⟨sound_of_machine sound, fun _ _ => isAligned_of_entryAddress?⟩

/-- After a failed run and a start at a label, the next fetch is of an instruction. -/
theorem resumed_sound :
    resumed.Sound faltering { memoryWords := 2 } ∧
      resumed.machine.pc.isAligned = true ∧
      ∀ error, resumed.machine.fetch faltering.instructions ≠ .error error := by
  have sound := reached_resumed.sound.1
  have aligned := sound.aligned (by decide)
  refine ⟨sound, aligned.1, fun error failed => ?_⟩
  have past := ((aligned.2 error).mp failed).2
  exact absurd past (by decide)

end Simulator

end TinyMips
