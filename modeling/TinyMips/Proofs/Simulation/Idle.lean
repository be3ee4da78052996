import Mathlib.Data.List.Chain
import Mathlib.Data.List.Nodup
import Mathlib.Data.List.Perm.Subperm
import TinyMips.Proofs.Simulation.Budget

namespace TinyMips

/-!
# What a stop at idle says

A program that comes back to an address, with no register and no memory word
changed in between, goes round for ever. `Simulator.Trail` says that the visited
addresses of the detector are such a way; it holds along every run until idle.
The detector compares addresses before it looks at the change, so a step that
changes the state and comes back to a visited address also stops the run. Then
nothing follows, and only another pass over the program can tell.
-/

namespace Simulator

/-! ## Resting -/

/-- A run of the given length succeeds and ends with the same registers and memory. -/
def RestsFor (simulator : Simulator) (cycles : Nat) : Prop :=
  ∃ later,
    simulator.run cycles = (.ok ⟨cycles, .cycleBudget⟩, later) ∧
      later.machine.registers = simulator.machine.registers ∧
      later.machine.memory = simulator.machine.memory

/-- Every later step succeeds, and none changes a register or a memory word. -/
def Settled (simulator : Simulator) : Prop :=
  ∀ cycles, simulator.RestsFor cycles

/-- One step succeeds and changes no register and no memory word. -/
def StepsQuietly (simulator next : Simulator) : Prop :=
  ∃ outcome,
    simulator.step = (.ok outcome, next) ∧
      outcome.effect.changesState = false

/-- Two simulators run one program with the same registers and memory. -/
structure Alike (first second : Simulator) : Prop where
  program : first.program = second.program
  registers : first.machine.registers = second.machine.registers
  memory : first.machine.memory = second.machine.memory

theorem Alike.symm
    {first second : Simulator}
    (alike : first.Alike second) :
    second.Alike first :=
  ⟨alike.program.symm, alike.registers.symm, alike.memory.symm⟩

/-- The effect of a step tells whether the simulators before and after it are alike. -/
theorem changesState_eq_false_iff_alike
    {simulator next : Simulator}
    {outcome : StepOutcome}
    (stepped : simulator.step = (.ok outcome, next)) :
    outcome.effect.changesState = false ↔ next.Alike simulator := by
  obtain ⟨_, evaluated, _, rfl⟩ := step_eq_ok_iff.mp stepped
  rw [Machine.changesState_eq_false_iff (Machine.describes_of_evaluate evaluated)]
  constructor
  · rintro ⟨sameRegisters, sameMemory⟩
    exact ⟨rfl, sameRegisters, sameMemory⟩
  · intro alike
    exact ⟨alike.registers, alike.memory⟩

/-- A quiet step changes nothing but the program counter. -/
theorem StepsQuietly.alike
    {simulator next : Simulator}
    (quiet : simulator.StepsQuietly next) :
    next.Alike simulator := by
  obtain ⟨outcome, stepped, unchanged⟩ := quiet
  exact (changesState_eq_false_iff_alike stepped).mp unchanged

theorem restsFor_zero (simulator : Simulator) :
    simulator.RestsFor 0 :=
  ⟨simulator, rfl, rfl, rfl⟩

/-- A quiet step takes one cycle away from the runs that rest. -/
theorem StepsQuietly.restsFor_succ_iff
    {simulator next : Simulator}
    (quiet : simulator.StepsQuietly next)
    (cycles : Nat) :
    simulator.RestsFor (cycles + 1) ↔ next.RestsFor cycles := by
  have alike := quiet.alike
  obtain ⟨outcome, stepped, _⟩ := quiet
  simp only [RestsFor, run_eq_ok_iff, steps_succ_of_ok stepped, and_true,
    alike.registers, alike.memory]

/-- Where a run of one cycle rests, the next step is quiet. -/
theorem stepsQuietly_of_restsFor_one
    {simulator : Simulator}
    (rests : simulator.RestsFor 1) :
    ∃ next, simulator.StepsQuietly next := by
  obtain ⟨later, ran, sameRegisters, sameMemory⟩ := rests
  have taken := (run_eq_ok_iff.mp ran).1
  cases stepped : simulator.step with
  | mk result next =>
      cases result with
      | error error =>
          simp [steps_succ_of_error stepped] at taken
      | ok outcome =>
          rw [steps_succ_of_ok stepped] at taken
          obtain rfl : next = later := (Prod.mk.inj taken).2
          obtain ⟨_, _, _, shape⟩ := step_eq_ok_iff.mp stepped
          have alike : next.Alike simulator :=
            ⟨by rw [shape]; rfl, sameRegisters, sameMemory⟩
          exact ⟨next, outcome, stepped,
            (changesState_eq_false_iff_alike stepped).mpr alike⟩

/-! ## Going round -/

/--
With the registers and the memory of the simulator, the instruction at one
address leads to another address and changes neither.
-/
def Leads (simulator : Simulator) (start goal : Word) : Prop :=
  ∃ instruction effect,
    let machine := { simulator.machine with pc := start }
    machine.fetch simulator.program.instructions = .ok instruction ∧
      machine.evaluate instruction = .ok effect ∧
      effect.changesState = false ∧
      effect.next start = goal

/-- Where quiet steps lead does not depend on where the program counter stands. -/
theorem Leads.of_alike
    {first second : Simulator}
    {start goal : Word}
    (leads : first.Leads start goal)
    (alike : first.Alike second) :
    second.Leads start goal := by
  obtain ⟨instruction, effect, fetched, evaluated, unchanged, arrives⟩ := leads
  refine ⟨instruction, effect, ?_, ?_, unchanged, arrives⟩
  · rw [← fetched, alike.program]
    exact Machine.fetch_congr rfl _
  · rw [← evaluated]
    apply Machine.evaluate_congr
    · exact alike.registers.symm
    · exact alike.memory.symm
    · rfl

/-- A quiet step leads from one program counter to the next. -/
theorem StepsQuietly.leads
    {simulator next : Simulator}
    (quiet : simulator.StepsQuietly next) :
    simulator.Leads simulator.machine.pc next.machine.pc := by
  obtain ⟨outcome, stepped, unchanged⟩ := quiet
  obtain ⟨fetched, evaluated, _, rfl⟩ := step_eq_ok_iff.mp stepped
  exact ⟨outcome.instruction, outcome.effect, fetched, evaluated, unchanged, rfl⟩

/--
Each visited address, the latest first, was left for the one visited after it with
the registers and the memory that are still there, and the latest is the present
one.
-/
structure Trail (simulator : Simulator) (visited : List Word) : Prop where
  present : ∀ address ∈ visited.head?, simulator.machine.pc = address
  linked : visited.IsChain fun later earlier => simulator.Leads earlier later

namespace Trail

theorem nil (simulator : Simulator) : simulator.Trail [] where
  present := by simp
  linked := .nil

/-- A quiet step makes a trail longer. -/
theorem step
    {simulator next : Simulator}
    {visited : List Word}
    (trail : simulator.Trail visited)
    (quiet : simulator.StepsQuietly next) :
    next.Trail (next.machine.pc :: visited) where
  present := by simp
  linked := by
    have kept : visited.IsChain fun later earlier => next.Leads earlier later :=
      trail.linked.imp fun _ _ leads => leads.of_alike quiet.alike.symm
    refine List.isChain_cons.mpr ⟨?_, kept⟩
    intro latest isLatest
    rw [← trail.present latest isLatest]
    exact quiet.leads.of_alike quiet.alike.symm

end Trail

/-! ## One more pass -/

/-- An address that leads on is that of an instruction. -/
theorem Leads.in_program
    {simulator : Simulator}
    {start goal : Word}
    (leads : simulator.Leads start goal) :
    start.isAligned = true ∧ start.index < simulator.program.size := by
  obtain ⟨instruction, effect, fetched, _⟩ := leads
  simp only [Machine.fetch] at fetched
  split at fetched
  · rename_i aligned
    split at fetched
    · rename_i found
      exact ⟨aligned, (Array.getElem?_eq_some_iff.mp found).1⟩
    · simp at fetched
  · simp at fetched

/-- Different addresses that lead on are at most as many as there are instructions. -/
theorem length_le_size_of_leads
    {simulator : Simulator}
    {addresses : List Word}
    (noDuplicates : addresses.Nodup)
    (leading :
      ∀ address ∈ addresses,
        ∃ goal, simulator.Leads address goal) :
    addresses.length ≤ simulator.program.size := by
  have placed :
      ∀ address ∈ addresses,
        address.isAligned = true ∧ address.index < simulator.program.size := by
    intro address member
    obtain ⟨goal, leads⟩ := leading address member
    exact leads.in_program
  have differentIndices : (addresses.map Word.index).Nodup := by
    refine List.Nodup.map_on ?_ noDuplicates
    intro first firstMember second secondMember sameIndex
    have firstAligned := (placed first firstMember).1
    have secondAligned := (placed second secondMember).1
    simp only [Word.isAligned, Word.index, decide_eq_true_eq] at *
    apply BitVec.eq_of_toNat_eq
    omega
  have inRange : addresses.map Word.index ⊆ List.range simulator.program.size := by
    intro index member
    obtain ⟨address, addressMember, rfl⟩ := List.mem_map.mp member
    exact List.mem_range.mpr (placed address addressMember).2
  simpa using (List.subperm_of_subset differentIndices inRange).length_le

/-- A quiet step to a settled simulator comes from a settled one. -/
theorem StepsQuietly.settled
    {simulator next : Simulator}
    (quiet : simulator.StepsQuietly next)
    (settled : next.Settled) :
    simulator.Settled := by
  intro cycles
  cases cycles with
  | zero =>
      exact simulator.restsFor_zero
  | succ cycles =>
      exact (quiet.restsFor_succ_iff cycles).mpr (settled cycles)

/-- The detector remembers the addresses of a trail and no others. -/
structure Watches (detector : IdleDetector) (simulator : Simulator) (visited : List Word) :
    Prop where
  trail : simulator.Trail visited
  remembered : ∀ address, detector.visited.contains address = visited.contains address

/-- A fresh detector watches the empty trail. -/
theorem Watches.fresh (simulator : Simulator) :
    Watches .fresh simulator [] where
  trail := .nil simulator
  remembered := by simp [IdleDetector.fresh]

/-- The detector says whether an address is on the trail. -/
theorem Watches.observe_fst_iff
    {detector : IdleDetector}
    {simulator : Simulator}
    {visited : List Word}
    (watches : Watches detector simulator visited)
    (address : Word)
    (changed : Bool) :
    (detector.observe address changed).1 = true ↔ address ∈ visited := by
  rw [IdleDetector.observe, watches.remembered address]
  split
  · rename_i seen
    simpa using seen
  · rename_i unseen
    split <;> simpa using unseen

/-- A step onto an address that is not on the trail leaves the detector a trail again. -/
theorem Watches.observe
    {detector : IdleDetector}
    {simulator next : Simulator}
    {outcome : StepOutcome}
    {visited : List Word}
    (watches : Watches detector simulator visited)
    (stepped : simulator.step = (.ok outcome, next))
    (elsewhere : next.machine.pc ∉ visited) :
    ∃ later laterVisited,
      detector.observe next.machine.pc outcome.effect.changesState = (false, later) ∧
        Watches later next laterVisited := by
  have unseen : detector.visited.contains next.machine.pc = false := by
    simpa [watches.remembered] using elsewhere
  cases changed : outcome.effect.changesState with
  | true =>
      exact ⟨.fresh, [], by simp [IdleDetector.observe, unseen], .fresh next⟩
  | false =>
      refine ⟨⟨detector.visited.insert next.machine.pc⟩,
        next.machine.pc :: visited, by simp [IdleDetector.observe, unseen], ?_, ?_⟩
      · exact watches.trail.step ⟨outcome, stepped, changed⟩
      · intro address
        simp [watches.remembered]

/-- What the detector remembers is a trail after every step that does not end the run. -/
theorem Watches.of_unended
    {detector later : IdleDetector}
    {simulator final : Simulator}
    {outcomes : List StepOutcome}
    {visited : List Word}
    (watches : Watches detector simulator visited)
    (unended : Unended detector simulator outcomes later final) :
    ∃ laterVisited, Watches later final laterVisited := by
  induction unended generalizing visited with
  | nil detector simulator =>
      exact ⟨visited, watches⟩
  | @cons detector _ _ _ next _ outcome _ stepped observed _ inductionHypothesis =>
      have elsewhere : next.machine.pc ∉ visited := by
        intro member
        have seen :=
          (watches.observe_fst_iff next.machine.pc outcome.effect.changesState).mpr member
        simp [observed] at seen
      obtain ⟨_, nextVisited, nextObserved, nextWatches⟩ :=
        watches.observe stepped elsewhere
      obtain rfl := (Prod.mk.inj (nextObserved.symm.trans observed)).2
      exact inductionHypothesis nextWatches

end Simulator

end TinyMips
