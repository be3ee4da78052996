import Mathlib.Tactic.IntervalCases
import TinyMips.Proofs.Simulation.Idle

namespace TinyMips.Simulator

/-!
# Idle loops are found within one pass

While no step changes a register or a memory word, the program counter alone decides
where the next step leads, and the detector remembers every address that is reached.
Different addresses that are reached have been left from different instructions, so
the detector can look on for as many steps as there are instructions and no longer.
-/

/-! ## What a detector gathers on quiet steps -/

/-- With the same registers and memory, an address leads to one address only. -/
theorem Leads.unique
    {simulator : Simulator}
    {start first second : Word}
    (leadsFirst : simulator.Leads start first)
    (leadsSecond : simulator.Leads start second) :
    first = second := by
  obtain ⟨instruction, effect, fetched, evaluated, _, rfl⟩ := leadsFirst
  obtain ⟨other, otherEffect, otherFetched, otherEvaluated, _, rfl⟩ := leadsSecond
  obtain rfl := Except.ok.inj (fetched.symm.trans otherFetched)
  obtain rfl := Except.ok.inj (evaluated.symm.trans otherEvaluated)
  rfl

/-- Different addresses that are led to are at most as many as there are instructions. -/
theorem length_le_size_of_led
    {simulator : Simulator}
    {goals : List Word}
    (noDuplicates : goals.Nodup)
    (led :
      ∀ goal ∈ goals,
        ∃ start, simulator.Leads start goal) :
    goals.length ≤ simulator.program.size := by
  choose start leads using led
  have differentStarts : (goals.attach.map fun goal => start goal.1 goal.2).Nodup := by
    refine List.Nodup.map_on ?_ (List.nodup_attach.mpr noDuplicates)
    intro first _ second _ sameStart
    have leadsFirst := leads first.1 first.2
    rw [sameStart] at leadsFirst
    exact Subtype.ext (leadsFirst.unique (leads second.1 second.2))
  have leading :
      ∀ address ∈ goals.attach.map fun goal => start goal.1 goal.2,
        ∃ goal, simulator.Leads address goal := by
    intro address member
    obtain ⟨goal, _, rfl⟩ := List.mem_map.mp member
    exact ⟨goal.1, leads goal.1 goal.2⟩
  simpa using length_le_size_of_leads differentStarts leading

/--
Different addresses that the detector remembers, each of which an instruction leads
to with the registers and the memory that are still there.
-/
structure Gathers (detector : IdleDetector) (simulator : Simulator) (gathered : List Word) :
    Prop where
  noDuplicates : gathered.Nodup
  remembered : ∀ address ∈ gathered, detector.visited.contains address = true
  led : ∀ address ∈ gathered, ∃ start, simulator.Leads start address

theorem Gathers.nil
    (detector : IdleDetector)
    (simulator : Simulator) :
    Gathers detector simulator [] :=
  ⟨.nil, by simp, by simp⟩

/-- A quiet step that does not end the run adds the address that it reaches. -/
theorem Gathers.observe
    {detector later : IdleDetector}
    {simulator next : Simulator}
    {outcome : StepOutcome}
    {gathered : List Word}
    (gathers : Gathers detector simulator gathered)
    (stepped : simulator.step = (.ok outcome, next))
    (unchanged : outcome.effect.changesState = false)
    (observed :
      detector.observe next.machine.pc outcome.effect.changesState = (false, later)) :
    Gathers later next (next.machine.pc :: gathered) := by
  have quiet : simulator.StepsQuietly next := ⟨outcome, stepped, unchanged⟩
  have unseen : detector.visited.contains next.machine.pc = false := by
    cases seen : detector.visited.contains next.machine.pc with
    | false => rfl
    | true => simp [IdleDetector.observe, seen] at observed
  obtain rfl : ⟨detector.visited.insert next.machine.pc⟩ = later := by
    simpa [IdleDetector.observe, unseen, unchanged] using observed
  refine ⟨?_, ?_, ?_⟩
  · refine List.nodup_cons.mpr ⟨?_, gathers.noDuplicates⟩
    intro member
    simp [gathers.remembered _ member] at unseen
  · intro address member
    rcases List.mem_cons.mp member with rfl | earlier
    · simp
    · simp [gathers.remembered address earlier]
  · intro address member
    rcases List.mem_cons.mp member with rfl | earlier
    · exact ⟨_, quiet.leads.of_alike quiet.alike.symm⟩
    · obtain ⟨start, leads⟩ := gathers.led address earlier
      exact ⟨start, leads.of_alike quiet.alike.symm⟩

/-- Over quiet steps that do not end a run, the detector gathers one address for each. -/
theorem Gathers.of_unended
    {detector later : IdleDetector}
    {simulator final : Simulator}
    {outcomes : List StepOutcome}
    {gathered : List Word}
    (gathers : Gathers detector simulator gathered)
    (unended : Unended detector simulator outcomes later final)
    (unchanged : ∀ outcome ∈ outcomes, outcome.effect.changesState = false) :
    ∃ laterGathered,
      Gathers later final laterGathered ∧
        laterGathered.length = gathered.length + outcomes.length := by
  induction unended generalizing gathered with
  | nil detector simulator =>
      exact ⟨gathered, gathers, rfl⟩
  | cons stepped observed _ inductionHypothesis =>
      have next := gathers.observe stepped (unchanged _ (by simp)) observed
      obtain ⟨laterGathered, laterGathers, count⟩ :=
        inductionHypothesis next fun outcome member => unchanged outcome (by simp [member])
      refine ⟨laterGathered, laterGathers, ?_⟩
      simp only [count, List.length_cons]
      omega

/-- Quiet steps that do not end a run are at most as many as there are instructions. -/
theorem Unended.length_le_size
    {detector later : IdleDetector}
    {simulator final : Simulator}
    {outcomes : List StepOutcome}
    (unended : Unended detector simulator outcomes later final)
    (unchanged : ∀ outcome ∈ outcomes, outcome.effect.changesState = false) :
    outcomes.length ≤ simulator.program.size := by
  obtain ⟨gathered, gathers, count⟩ :=
    (Gathers.nil detector simulator).of_unended unended unchanged
  have few := length_le_size_of_led gathers.noDuplicates gathers.led
  rw [count, unended.path.program] at few
  simpa using few

/-! ## The run around a quiet pass -/

/-- Where each shorter run rests, no step of a path changes a register or a memory word. -/
theorem Path.unchanged_of_restsFor
    {simulator final : Simulator}
    {outcomes : List StepOutcome}
    (path : Path simulator outcomes final)
    (rests : ∀ cycles ≤ outcomes.length, simulator.RestsFor cycles) :
    ∀ outcome ∈ outcomes, outcome.effect.changesState = false := by
  induction path with
  | nil simulator =>
      simp
  | @cons simulator next final outcome outcomes stepped rest inductionHypothesis =>
      obtain ⟨quietNext, quiet⟩ := stepsQuietly_of_restsFor_one (rests 1 (by simp))
      obtain ⟨quietOutcome, quietStepped, unchanged⟩ := quiet
      obtain ⟨sameOutcome, rfl⟩ := Prod.mk.inj (quietStepped.symm.trans stepped)
      obtain rfl := Except.ok.inj sameOutcome
      intro other member
      rcases List.mem_cons.mp member with rfl | later
      · exact unchanged
      · refine inductionHypothesis ?_ other later
        intro cycles bounded
        have longer := rests (cycles + 1) (by simpa using bounded)
        exact (StepsQuietly.restsFor_succ_iff ⟨_, quietStepped, unchanged⟩ cycles).mp longer

/--
If a run rests for one pass over the program and one step more once it has taken
`before` cycles, then a run until idle stops at idle by the end of that pass: every
budget that reaches the stop ends there, and a smaller one is used up.
-/
theorem stops_idle_within_pass
    {simulator reached : Simulator}
    {before : Nat}
    (arrived : simulator.run before = (.ok ⟨before, .cycleBudget⟩, reached))
    (rests : ∀ cycles ≤ simulator.program.size + 1, reached.RestsFor cycles) :
    ∃ cycles ≤ before + simulator.program.size + 1,
      (∀ budget ≥ cycles,
        ∃ final, simulator.runUntilIdle budget = (.ok ⟨cycles, .idle⟩, final)) ∧
      ∀ budget < cycles,
        ∃ final, simulator.runUntilIdle budget = (.ok ⟨budget, .cycleBudget⟩, final) := by
  obtain ⟨_, leading, leadingPath, rfl⟩ := run_eq_ok_iff_path.mp arrived
  obtain ⟨last, ran, _⟩ := rests (simulator.program.size + 1) (Nat.le_refl _)
  obtain ⟨_, pass, passPath, passLength⟩ := run_eq_ok_iff_path.mp ran
  obtain ⟨outcomes, detector, final, unended, sameLength | ⟨fewer, result, ends⟩⟩ :=
    exists_unended .fresh simulator 0 (leading.length + simulator.program.size + 1)
  · have wholePath := leadingPath.append passPath
    obtain ⟨rfl, _⟩ :=
      unended.path.unique wholePath (by simp [sameLength, passLength, Nat.add_assoc])
    obtain ⟨between, middle, leadingUnended, passUnended⟩ := unended.split
    obtain ⟨_, rfl⟩ := leadingUnended.path.unique leadingPath rfl
    have sameProgram : middle.program = simulator.program := leadingPath.program
    have unchanged := passPath.unchanged_of_restsFor (passLength ▸ rests)
    have few := passUnended.length_le_size unchanged
    rw [passLength, sameProgram] at few
    omega
  · rw [Nat.zero_add] at ends
    cases ends with
    | idle stepped observed =>
        refine ⟨outcomes.length + 1, fewer, ?_, ?_⟩
        · intro budget enough
          exact ⟨_, unended.runUntilIdle_of_ends (.idle stepped observed) enough⟩
        · intro budget short
          exact unended.runUntilIdle_of_le (Nat.le_of_lt_succ short)
    | error failed =>
        have wholePath := leadingPath.append passPath
        have taken := unended.path.steps_of_step_error failed fewer
        rw [Nat.add_assoc, ← passLength, ← List.length_append, wholePath.steps_length] at taken
        simp at taken

/--
A loop that adds and stores the same values over and over: only its first two steps
change anything.
-/
def rewriting : Simulator :=
  .new
    (.ofInstructions [.addi ⟨8⟩ .zero 5, .sw ⟨8⟩ .zero 0, .beq .zero .zero 0xFFFD])
    { memoryWords := 1 }

/--
The loop rests from its third step on, and its run stops after six cycles: at the
start of the program, with the register and the memory word set.
-/
theorem rewriting_stops_idle_at_six :
    ∃ final,
      (∀ budget ≥ 6, rewriting.runUntilIdle budget = (.ok ⟨6, .idle⟩, final)) ∧
        final.machine.pc = 0 ∧
        final.machine.registers.read ⟨8⟩ = 5 ∧
        final.machine.memory.read 0 = .ok 5 ∧
        ∀ budget < 6,
          ∃ reached, rewriting.runUntilIdle budget = (.ok ⟨budget, .cycleBudget⟩, reached) := by
  have arrived : rewriting.run 2 = (.ok ⟨2, .cycleBudget⟩, (rewriting.run 2).2) := by
    rfl
  obtain ⟨cycles, _, stops, goesOn⟩ := stops_idle_within_pass arrived <| by
    intro cycles bounded
    have few : cycles ≤ 4 := bounded
    interval_cases cycles
    all_goals exact ⟨_, rfl, rfl, rfl⟩
  have stopped : rewriting.runUntilIdle 6 = (.ok ⟨6, .idle⟩, (rewriting.runUntilIdle 6).2) := by
    rfl
  have every := (runUntilIdle_idle_of_le stopped).2
  obtain rfl : cycles = 6 := by
    obtain ⟨final, ended⟩ := stops (max cycles 6) (Nat.le_max_left cycles 6)
    rw [every (max cycles 6) (Nat.le_max_right cycles 6)] at ended
    simpa using (Prod.mk.inj ended).1.symm
  exact ⟨_, every, by decide +kernel, by decide +kernel, by decide +kernel, goesOn⟩

end TinyMips.Simulator
