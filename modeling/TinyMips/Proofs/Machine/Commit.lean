import TinyMips.Proofs.Machine.Effect
import TinyMips.Proofs.Traversal

namespace TinyMips

/-!
# Committing is all or nothing

A commit can be told as a sequence of changes to one machine, of which only the store
may fail, and a change that was made before a failure stays. Told this way it comes to
the same as `Machine.commit`: no change is made before the only one that can fail. It
fails for no effect but a store whose address the memory does not have, and an effect
that was evaluated on the same machine is never of this kind.
-/

namespace Memory

/-- An access is refused exactly if its address lies inside a word or past the end. -/
theorem fault?_eq_some_iff
    {size : Nat}
    {address : Word}
    {fault : MemoryFault} :
    fault? size address = some fault ↔
      address.toNat % 4 ≠ 0 ∧ fault = .misaligned ∨
        address.toNat % 4 = 0 ∧ 4 * size ≤ address.toNat ∧ fault = .outOfBounds := by
  have sameBound : size ≤ address.toNat / 4 ↔ 4 * size ≤ address.toNat := by
    omega
  by_cases aligned : address.toNat % 4 = 0
  · by_cases outside : 4 * size ≤ address.toNat
    · simp [fault?, Word.isAligned, Word.index, aligned, sameBound, outside, eq_comm]
    · simp [fault?, Word.isAligned, Word.index, aligned, sameBound, outside]
  · simp [fault?, Word.isAligned, aligned, eq_comm]

end Memory

/-- Changes to a machine in turn; what was changed before a failure stays changed. -/
abbrev Machine.Changes := TinyMips.Changes ExecutionError Machine

namespace Machine

/-- Change the counters and nothing else. -/
def recount (change : Counters → Counters) : Changes Unit :=
  modify fun machine => { machine with counters := change machine.counters }

/-- Store a word, or fail if the memory does not have its address. -/
def storeInPlace (address value : Word) : Changes Unit := do
  let memory ← ofExcept (((← get).memory.write address value).mapError ExecutionError.access)
  modify fun machine => { machine with memory }

/--
Let an effect of an instruction take place by one change after the other: first the
place that is written and its counter, then the program counter, and then the counters
of the class.
-/
def commitInTurn (instruction : Instruction) (effect : Effect) : Changes Unit := do
  let following := (← get).pc + 4
  let pc ←
    match effect with
    | .registerWrite reg _ after => do
        modify fun machine => { machine with registers := machine.registers.write reg after }
        recount fun counters => { counters with registerWrites := counters.registerWrites + 1 }
        pure following
    | .discarded _ => do
        recount fun counters => { counters with zeroWrites := counters.zeroWrites + 1 }
        pure following
    | .memoryWrite address _ after => do
        storeInPlace address after
        recount fun counters => { counters with memoryWrites := counters.memoryWrites + 1 }
        pure following
    | .branch true target => do
        recount fun counters => { counters with branchesTaken := counters.branchesTaken + 1 }
        pure target
    | .branch false _ => pure following
  modify fun machine => { machine with pc }
  recount fun counters => counters.retire instruction.category

/-- Evaluate an instruction on the machine as it is and commit its effect in turn. -/
def executeInTurn (instruction : Instruction) : Changes Effect := do
  let effect ← ofExcept ((← get).evaluate instruction)
  commitInTurn instruction effect
  return effect

/-- A store in place is refused or carried out like the write of the memory. -/
theorem storeInPlace_run
    (machine : Machine)
    (address value : Word) :
    (storeInPlace address value).run.run machine =
      match Memory.fault? machine.memory.size address with
      | some fault => (.error (.access ⟨address, .store, fault⟩), machine)
      | none => (.ok (), { machine with memory := machine.memory.store address value }) := by
  have run :
      (storeInPlace address value).run.run machine =
        match machine.memory.write address value with
        | .error error => (.error (.access error), machine)
        | .ok memory => (.ok (), { machine with memory }) := by
    change
      (ofExcept ((machine.memory.write address value).mapError ExecutionError.access) >>=
          fun memory => modify fun machine => { machine with memory } :
        Changes Unit).run.run machine =
        _
    cases machine.memory.write address value with
    | error error => rfl
    | ok memory => rfl
  rw [run]
  cases inside : Memory.fault? machine.memory.size address with
  | some fault => simp [Memory.write, Memory.check, inside, Except.map]
  | none => simp [Memory.write, Memory.check, inside, Except.map]

/-- Committing in turn leaves what `commit` leaves. -/
theorem commitInTurn_run
    (machine : Machine)
    (instruction : Instruction)
    (effect : Effect) :
    (commitInTurn instruction effect).run.run machine = machine.commit instruction effect := by
  cases effect with
  | registerWrite reg before after => rfl
  | discarded value => rfl
  | memoryWrite address before after =>
      have split :
          (commitInTurn instruction (.memoryWrite address before after)).run.run machine =
            (storeInPlace address after >>= fun _ => do
              recount fun counters => { counters with memoryWrites := counters.memoryWrites + 1 }
              modify fun stored => { stored with pc := machine.pc + 4 }
              recount fun counters => counters.retire instruction.category).run.run machine :=
        rfl
      rw [split, Changes.run_bind, storeInPlace_run, commit, refusal?]
      cases Memory.fault? machine.memory.size address with
      | some fault => rfl
      | none => rfl
  | branch taken target =>
      cases taken with
      | true => rfl
      | false => rfl

/-- Executing in turn leaves what `execute` leaves. -/
theorem executeInTurn_run
    (machine : Machine)
    (instruction : Instruction) :
    (executeInTurn instruction).run.run machine = machine.execute instruction := by
  have split :
      (executeInTurn instruction).run.run machine =
        (ofExcept (machine.evaluate instruction) >>= fun effect => do
          commitInTurn instruction effect
          return effect : Changes Effect).run.run machine :=
    rfl
  rw [split, Changes.run_bind, execute]
  cases machine.evaluate instruction with
  | error error => rfl
  | ok effect =>
      change (commitInTurn instruction effect >>= fun _ => pure effect).run.run machine = _
      simp only [Changes.run_bind, commitInTurn_run]
      cases machine.commit instruction effect with
      | mk result after =>
          cases result with
          | ok done => rfl
          | error error => rfl

/-- The only effect that is refused is a store to an address that the memory does not have. -/
theorem refusal?_eq_some_iff
    {machine : Machine}
    {effect : Effect}
    {error : ExecutionError} :
    machine.refusal? effect = some error ↔
      ∃ address before after fault,
        effect = .memoryWrite address before after ∧
          Memory.fault? machine.memory.size address = some fault ∧
          error = .access ⟨address, .store, fault⟩ := by
  cases effect with
  | registerWrite reg before after => simp [refusal?]
  | discarded value => simp [refusal?]
  | memoryWrite address before after => simp [refusal?, eq_comm (a := error)]
  | branch taken target => simp [refusal?]

/-- A commit fails exactly if its effect is refused, and then leaves the machine as it was. -/
theorem commit_eq_error_iff
    {machine after : Machine}
    {instruction : Instruction}
    {effect : Effect}
    {error : ExecutionError} :
    machine.commit instruction effect = (.error error, after) ↔
      machine.refusal? effect = some error ∧ after = machine := by
  unfold commit
  cases machine.refusal? effect with
  | some reason => simp [eq_comm]
  | none => simp

/-- An execution fails exactly if evaluation does, and leaves the machine as it was. -/
theorem execute_eq_error_iff
    {machine after : Machine}
    {instruction : Instruction}
    {error : ExecutionError} :
    machine.execute instruction = (.error error, after) ↔
      machine.evaluate instruction = .error error ∧ after = machine := by
  cases evaluated : machine.evaluate instruction with
  | error reason =>
      rw [execute_of_evaluate_error evaluated]
      simp [eq_comm]
  | ok effect =>
      rw [execute_of_evaluate_ok evaluated]
      simp

/--
An effect that was evaluated takes place on the same machine, so that an execution only
fails where evaluation does, and nothing changes there. Of all effects, those that no
evaluation finds included, exactly the stores to addresses that are inside a word or past
the memory are refused, and nothing changes then. The machine may just as well be changed
by one change after the other: no change is made before one that can fail.
-/
theorem commit_is_atomic
    (machine : Machine)
    (instruction : Instruction) :
    (∀ effect,
      machine.evaluate instruction = .ok effect →
        machine.commit instruction effect = (.ok (), machine.apply instruction effect)) ∧
    (∀ error after,
      machine.execute instruction = (.error error, after) ↔
        machine.evaluate instruction = .error error ∧ after = machine) ∧
    (∀ effect error after,
      machine.commit instruction effect = (.error error, after) ↔
        (∃ address old new fault,
          effect = .memoryWrite address old new ∧
            (address.toNat % 4 ≠ 0 ∧ fault = .misaligned ∨
              address.toNat % 4 = 0 ∧ 4 * machine.memory.size ≤ address.toNat ∧
                fault = .outOfBounds) ∧
            error = .access ⟨address, .store, fault⟩) ∧
          after = machine) ∧
    (∀ effect,
      (commitInTurn instruction effect).run.run machine = machine.commit instruction effect) ∧
    (executeInTurn instruction).run.run machine = machine.execute instruction := by
  refine ⟨?_, ?_, ?_, ?_, ?_⟩
  · intro effect evaluated
    have accepted := refusal?_of_describes (describes_of_evaluate evaluated)
    rw [commit, accepted]
  · intro error after
    exact execute_eq_error_iff
  · intro effect error after
    simp only [commit_eq_error_iff, refusal?_eq_some_iff, Memory.fault?_eq_some_iff]
  · intro effect
    exact machine.commitInTurn_run instruction effect
  · exact machine.executeInTurn_run instruction

/-- A machine with one word of memory, and a store to it. -/
def singleWord : Machine :=
  .ofConfig { memoryWords := 1 }

/-- The store takes place, and stale effects past the word and inside of it are refused. -/
theorem singleWord_commits_and_refuses :
    singleWord.evaluate (.sw .zero .zero 0) = .ok (.memoryWrite 0 0 0) ∧
      (singleWord.commit (.sw .zero .zero 0) (.memoryWrite 0 0 0)).1 = .ok () ∧
      singleWord.commit (.sw .zero .zero 0) (.memoryWrite 4 0 1) =
        (.error (.access ⟨4, .store, .outOfBounds⟩), singleWord) ∧
      singleWord.commit (.sw .zero .zero 0) (.memoryWrite 6 0 1) =
        (.error (.access ⟨6, .store, .misaligned⟩), singleWord) := by
  have evaluated : singleWord.evaluate (.sw .zero .zero 0) = .ok (.memoryWrite 0 0 0) := by
    rfl
  obtain ⟨succeeds, _, fails, _⟩ := singleWord.commit_is_atomic (.sw .zero .zero 0)
  refine ⟨evaluated, congrArg Prod.fst (succeeds _ evaluated), ?_, ?_⟩
  · exact (fails _ _ _).mpr ⟨⟨4, 0, 1, .outOfBounds, rfl, .inr (by decide), rfl⟩, rfl⟩
  · exact (fails _ _ _).mpr ⟨⟨6, 0, 1, .misaligned, rfl, .inl (by decide), rfl⟩, rfl⟩

end Machine

end TinyMips
