import TinyMips.Proofs.Machine.Commit
import TinyMips.Proofs.Machine.Sound

namespace TinyMips.Memory

/-!
# Data memory as a map

A memory that was zero at first and has served requests since then is a map from the
aligned addresses inside it to words: an address holds what was last written there since
the memory was last cleared, and zero otherwise. What is written at one address does not
show at another one, because an aligned address is known by the index of its word.
-/

/-- What a memory can be asked to do. -/
inductive Request where
  /-- Read the word at an address. -/
  | read (address : Word)
  /-- Write a word at an address. -/
  | write (address value : Word)
  /-- Say whether an access to an address is fine. -/
  | check (address : Word) (access : Access)
  /-- Make every word zero. -/
  | clear
  deriving DecidableEq, Repr

/-- What a memory answers to a request that it does not refuse. -/
inductive Reply where
  /-- The word that was read. -/
  | word (value : Word)
  /-- The index of the word at an address that was checked. -/
  | index (index : Nat)
  /-- A write and a clear have no result. -/
  | done
  deriving DecidableEq, Repr

/-- A request and what became of it. -/
structure Exchange where
  request : Request
  result : Except AccessError Reply

/-- Serve a request: the answer, and the memory that is left. -/
def serve (memory : Memory) : Request → Except AccessError Reply × Memory
  | .read address => ((memory.read address).map .word, memory)
  | .write address value =>
      match memory.write address value with
      | .ok written => (.ok .done, written)
      | .error error => (.error error, memory)
  | .check address access => ((memory.check address access).map .index, memory)
  | .clear => (.ok .done, memory.clear)

/-- Serve requests in order: all exchanges, and the memory that is left. -/
def serveAll : List Request → Memory → List Exchange × Memory
  | [], memory => ([], memory)
  | request :: requests, memory =>
      let (result, next) := memory.serve request
      let (exchanges, final) := serveAll requests next
      (⟨request, result⟩ :: exchanges, final)

/-- The exchanges are about the requests, in their order. -/
theorem map_request_serveAll
    (requests : List Request)
    (memory : Memory) :
    (serveAll requests memory).1.map Exchange.request = requests := by
  induction requests generalizing memory with
  | nil => rfl
  | cons request requests inductionHypothesis =>
      exact congrArg (request :: ·) (inductionHypothesis (memory.serve request).2)

/-! ## Requests by changes in turn -/

/-- Changes to a memory in turn; what was changed before a refusal stays changed. -/
abbrev Changes := TinyMips.Changes AccessError Memory

/-- Check an access to the memory as it is: first how the address lies, then where. -/
def checkInTurn (address : Word) (access : Access) : Changes Nat := do
  if !address.isAligned then
    throw ⟨address, access, .misaligned⟩
  if address.index ≥ (← get).size then
    throw ⟨address, access, .outOfBounds⟩
  return address.index

/-- Set one cell. -/
def setCell (index : Nat) (value : Word) : Changes Unit :=
  modify fun memory => { memory with cells := memory.cells.setIfInBounds index value }

/-- Write a word into its cell once its address is checked. -/
def writeInTurn (address value : Word) : Changes Unit := do
  let index ← checkInTurn address .store
  setCell index value

/-- Set one cell after the other to zero. -/
def clearInTurn : Changes Unit := do
  (List.range (← get).size).forM fun index => setCell index 0

/-- Serve a request by changes to the memory in place. -/
def serveInTurn : Request → Changes Reply
  | .read address => do
      let index ← checkInTurn address .load
      return .word ((← get).word index)
  | .write address value => do
      writeInTurn address value
      return .done
  | .check address access => do
      return .index (← checkInTurn address access)
  | .clear => do
      clearInTurn
      return .done

/-- Serve requests in place, each of them on what the ones before it have left. -/
def serveAllInTurn : List Request → StateM Memory (List Exchange)
  | [] => return []
  | request :: requests => do
      let result ← (serveInTurn request).run
      return ⟨request, result⟩ :: (← serveAllInTurn requests)

/-- Checking in turn answers what `check` answers, and changes nothing. -/
theorem checkInTurn_run
    (memory : Memory)
    (address : Word)
    (access : Access) :
    (checkInTurn address access).run.run memory = (memory.check address access, memory) := by
  rw [check, fault?]
  by_cases aligned : address.isAligned
  · by_cases outside : address.index ≥ memory.size
    · simp only [checkInTurn, aligned, outside, Bool.not_true, Bool.false_eq_true, if_false,
        if_true, bind_pure_comp, ExceptT.map_throw, Changes.run_bind, Changes.run_get]
      rfl
    · simp only [checkInTurn, aligned, outside, Bool.not_true, Bool.false_eq_true, if_false,
        bind_pure_comp, ExceptT.map_throw, Changes.run_bind, Changes.run_get]
      rfl
  · simp only [checkInTurn, aligned, Bool.not_false, if_true, bind_pure_comp, ExceptT.map_throw,
      ExceptT.bind_throw]
    rfl

/-- Writing in turn leaves the memory that `write` gives, or the memory as it was. -/
theorem writeInTurn_run
    (memory : Memory)
    (address value : Word) :
    (writeInTurn address value).run.run memory =
      match memory.write address value with
      | .ok written => (.ok (), written)
      | .error error => (.error error, memory) := by
  rw [writeInTurn, Changes.run_bind, checkInTurn_run, write, check]
  cases fault? memory.size address with
  | some fault => rfl
  | none => rfl

/-- A cell that is set to zero holds zero, past the end as well, and the others keep theirs. -/
theorem word_setIfInBounds_zero
    (cells : Array Word)
    (target index : Nat) :
    (⟨cells.setIfInBounds target 0⟩ : Memory).word index =
      if index = target then 0 else (⟨cells⟩ : Memory).word index := by
  simp only [word, Array.getD_eq_getD_getElem?, Array.getElem?_setIfInBounds, eq_comm (a := index)]
  split
  · split <;> rfl
  · rfl

/-- Cells that are set to zero one after the other hold zero, and the others what they held. -/
theorem forM_setCell_run
    (indices : List Nat)
    (memory : Memory) :
    ∃ cleared,
      (indices.forM fun index => setCell index 0 : Changes Unit).run.run memory =
          (.ok (), cleared) ∧
        cleared.size = memory.size ∧
        ∀ index, cleared.word index = if index ∈ indices then 0 else memory.word index := by
  induction indices generalizing memory with
  | nil => exact ⟨memory, rfl, rfl, by simp⟩
  | cons first indices inductionHypothesis =>
      obtain ⟨cleared, ran, sameSize, words⟩ :=
        inductionHypothesis ⟨memory.cells.setIfInBounds first 0⟩
      refine ⟨cleared, (Changes.run_bind (setCell first 0) _ memory).trans ran, ?_, ?_⟩
      · simpa [size] using sameSize
      · intro index
        rw [words, word_setIfInBounds_zero]
        simp only [List.mem_cons, or_comm (a := index = first)]
        split <;> simp_all

/-- Clearing in turn leaves what `clear` leaves. -/
theorem clearInTurn_run (memory : Memory) :
    (clearInTurn : Changes Unit).run.run memory = (.ok (), memory.clear) := by
  obtain ⟨cleared, ran, sameSize, words⟩ := forM_setCell_run (List.range memory.size) memory
  refine (Changes.run_bind get _ memory).trans (ran.trans (congrArg (Prod.mk _) ?_))
  refine eq_of_words (sameSize.trans (size_zeroed memory.size).symm) fun index inside => ?_
  rw [words, clear, word_zeroed, if_pos (List.mem_range.mpr (sameSize ▸ inside))]

/-- Serving in turn answers what `serve` answers and leaves what it leaves. -/
theorem serveInTurn_run
    (memory : Memory)
    (request : Request) :
    (serveInTurn request).run.run memory = memory.serve request := by
  cases request with
  | read address =>
      rw [serveInTurn, Changes.run_bind, checkInTurn_run, serve, read]
      cases memory.check address .load with
      | error error => rfl
      | ok index => rfl
  | write address value =>
      rw [serveInTurn, Changes.run_bind, writeInTurn_run, serve]
      cases memory.write address value with
      | error error => rfl
      | ok written => rfl
  | check address access =>
      rw [serveInTurn, Changes.run_bind, checkInTurn_run, serve]
      cases memory.check address access with
      | error error => rfl
      | ok index => rfl
  | clear =>
      rw [serveInTurn, Changes.run_bind, clearInTurn_run]
      rfl

/-- Requests that are served in turn, in one memory, get the answers of `serveAll`. -/
theorem serveAllInTurn_run
    (requests : List Request)
    (memory : Memory) :
    (serveAllInTurn requests).run memory = serveAll requests memory := by
  induction requests generalizing memory with
  | nil => rfl
  | cons request requests inductionHypothesis =>
      have served :
          (serveAllInTurn (request :: requests)).run memory =
            let (result, next) := (serveInTurn request).run.run memory
            let (exchanges, final) := (serveAllInTurn requests).run next
            (⟨request, result⟩ :: exchanges, final) :=
        rfl
      rw [served, serveInTurn_run]
      simp only [inductionHypothesis]
      rfl

/-! ## What the history tells -/

/-- An address is that of a word inside a memory of the given size. -/
def Inside (size : Nat) (address : Word) : Prop :=
  address.toNat % 4 = 0 ∧ address.toNat / 4 < size

/-- A write of a value at an address that was carried out. -/
def Exchange.written (address value : Word) : Exchange :=
  ⟨.write address value, .ok .done⟩

/-- A clear. -/
def Exchange.cleared : Exchange :=
  ⟨.clear, .ok .done⟩

/-- The word that an address holds by the history of the memory, the latest exchange last. -/
inductive Holds (history : List Exchange) (address : Word) : Word → Prop where
  /-- The value was written there, and since then no other value and no clear came. -/
  | written
      {before after : List Exchange}
      {value : Word}
      (shape : history = before ++ .written address value :: after)
      (latest : ∀ other, .written address other ∉ after)
      (uncleared : .cleared ∉ after) :
      Holds history address value
  /-- A clear came after whatever was written there. -/
  | unwritten
      (cleared :
        ∀ before value after,
          history = before ++ .written address value :: after → .cleared ∈ after) :
      Holds history address 0

/-- The address and the direction of the access that a request makes, if it makes one. -/
def Request.access? : Request → Option (Word × Access)
  | .read address => some (address, .load)
  | .write address _ => some (address, .store)
  | .check address access => some (address, access)
  | .clear => none

/-- What a memory of the given size answers to a request after the exchanges of its history. -/
inductive Answers (size : Nat) (history : List Exchange) :
    Request → Except AccessError Reply → Prop where
  | read
      {address value : Word}
      (inside : Inside size address)
      (holds : Holds history address value) :
      Answers size history (.read address) (.ok (.word value))
  | write
      {address value : Word}
      (inside : Inside size address) :
      Answers size history (.write address value) (.ok .done)
  | check
      {address : Word}
      {access : Access}
      (inside : Inside size address) :
      Answers size history (.check address access) (.ok (.index (address.toNat / 4)))
  | clear :
      Answers size history .clear (.ok .done)
  /-- An address inside a word is misaligned, also if it lies past the end. -/
  | misaligned
      {request : Request}
      {address : Word}
      {access : Access}
      (accesses : request.access? = some (address, access))
      (misaligned : address.toNat % 4 ≠ 0) :
      Answers size history request (.error ⟨address, access, .misaligned⟩)
  | outOfBounds
      {request : Request}
      {address : Word}
      {access : Access}
      (accesses : request.access? = some (address, access))
      (aligned : address.toNat % 4 = 0)
      (outside : size ≤ address.toNat / 4) :
      Answers size history request (.error ⟨address, access, .outOfBounds⟩)

/-! ## The latest exchange -/

/-- An element of a longer list is its new last one, or an element before it. -/
theorem concat_eq_append_cons_iff
    {α : Type}
    {items before after : List α}
    {last item : α} :
    items ++ [last] = before ++ item :: after ↔
      after = [] ∧ items = before ∧ last = item ∨
        ∃ rest, after = rest ++ [last] ∧ items = before ++ item :: rest := by
  constructor
  · intro shape
    rcases List.eq_nil_or_concat' after with rfl | ⟨rest, final, rfl⟩
    · obtain ⟨rfl, same⟩ := List.append_inj' shape rfl
      exact .inl ⟨rfl, rfl, (List.cons.inj same).1⟩
    · rw [← List.cons_append, ← List.append_assoc] at shape
      obtain ⟨rfl, same⟩ := List.append_inj' shape rfl
      exact .inr ⟨rest, by rw [(List.cons.inj same).1], rfl⟩
  · rintro (⟨rfl, rfl, rfl⟩ | ⟨rest, rfl, rfl⟩)
    · rfl
    · simp

theorem written_ne_cleared (address value : Word) :
    Exchange.written address value ≠ .cleared := by
  simp [Exchange.written, Exchange.cleared]

theorem written_inj
    {address other value otherValue : Word} :
    Exchange.written address value = .written other otherValue ↔
      address = other ∧ value = otherValue := by
  simp [Exchange.written]

/-- Before any exchange, every word is zero. -/
theorem holds_nil_iff
    {address value : Word} :
    Holds [] address value ↔ value = 0 := by
  constructor
  · intro holds
    cases holds with
    | written shape _ _ => simp at shape
    | unwritten _ => rfl
  · rintro rfl
    exact .unwritten (by simp)

/-- What an address holds is decided by the latest exchange, or else as it was before it. -/
theorem holds_concat_iff
    {history : List Exchange}
    {exchange : Exchange}
    {address value : Word} :
    Holds (history ++ [exchange]) address value ↔
      exchange = .written address value ∨
        exchange = .cleared ∧ value = 0 ∨
          (exchange ≠ .cleared ∧ ∀ other, exchange ≠ .written address other) ∧
            Holds history address value := by
  constructor
  · intro holds
    cases holds with
    | @written before after _ shape latest uncleared =>
        rcases concat_eq_append_cons_iff.mp shape with
          ⟨_, _, same⟩ | ⟨rest, rfl, earlier⟩
        · exact .inl same
        · refine .inr (.inr ⟨⟨?_, fun other same => ?_⟩, ?_⟩)
          · rintro rfl
            simp at uncleared
          · exact latest other (by simp [same])
          · exact .written earlier (fun other member => latest other (by simp [member]))
              (fun member => uncleared (by simp [member]))
    | unwritten cleared =>
        by_cases isClear : exchange = .cleared
        · exact .inr (.inl ⟨isClear, rfl⟩)
        · refine .inr (.inr ⟨⟨isClear, fun other same => ?_⟩, .unwritten ?_⟩)
          · simpa using cleared history other [] (by rw [same])
          · intro before value after shape
            have member := cleared before value (after ++ [exchange]) (by simp [shape])
            simpa [Ne.symm isClear] using member
  · rintro (rfl | ⟨rfl, rfl⟩ | ⟨⟨noClear, noWrite⟩, holds⟩)
    · exact .written rfl (by simp) (by simp)
    · refine .unwritten fun before value after shape => ?_
      rcases concat_eq_append_cons_iff.mp shape with ⟨_, _, same⟩ | ⟨rest, rfl, _⟩
      · exact absurd same.symm (written_ne_cleared address value)
      · simp
    · cases holds with
      | @written before after _ shape latest uncleared =>
          have longer :
              history ++ [exchange] = before ++ .written address value :: (after ++ [exchange]) := by
            simp [shape]
          refine .written longer ?_ ?_
          · intro other member
            rcases List.mem_append.mp member with earlier | last
            · exact latest other earlier
            · exact noWrite other (List.mem_singleton.mp last).symm
          · intro member
            rcases List.mem_append.mp member with earlier | last
            · exact uncleared earlier
            · exact noClear (List.mem_singleton.mp last).symm
      | unwritten cleared =>
          refine .unwritten fun before value after shape => ?_
          rcases concat_eq_append_cons_iff.mp shape with ⟨_, _, same⟩ | ⟨rest, rfl, earlier⟩
          · exact absurd same (noWrite value)
          · exact List.mem_append_left _ (cleared before value rest earlier)

/-! ## What a memory keeps -/

/-- An address is inside the memory exactly if an access there has no fault. -/
theorem inside_iff
    {size : Nat}
    {address : Word} :
    Inside size address ↔ fault? size address = none := by
  rw [fault?_eq_none_iff, Word.isAligned_iff, Inside, Word.index]

/-- An aligned address is known by the index of its word. -/
theorem eq_of_index
    {size : Nat}
    {address other : Word}
    (inside : Inside size address)
    (otherInside : Inside size other)
    (same : address.index = other.index) :
    address = other := by
  obtain ⟨aligned, _⟩ := inside
  obtain ⟨otherAligned, _⟩ := otherInside
  apply BitVec.eq_of_toNat_eq
  unfold Word.index at same
  omega

/-- A memory is of a size and holds the words that its history tells. -/
structure Keeps (size : Nat) (history : List Exchange) (memory : Memory) : Prop where
  sameSize : memory.size = size
  words :
    ∀ address,
      Inside size address →
        ∀ value, Holds history address value ↔ value = memory.word address.index

/-- A fresh memory keeps the empty history. -/
theorem keeps_zeroed (size : Nat) : Keeps size [] (zeroed size) where
  sameSize := size_zeroed size
  words := fun address _ value => by
    rw [holds_nil_iff, word_zeroed]

/-- Where no word is set, the memory goes on to hold what its history tells. -/
theorem Keeps.of_unchanged
    {size : Nat}
    {history : List Exchange}
    {memory : Memory}
    (keeps : Keeps size history memory)
    {exchange : Exchange}
    (noClear : exchange ≠ .cleared)
    (noWrite : ∀ address value, exchange ≠ .written address value) :
    Keeps size (history ++ [exchange]) memory where
  sameSize := keeps.sameSize
  words := fun address inside value => by
    rw [holds_concat_iff, ← keeps.words address inside value]
    simp [noClear, noWrite]

theorem Keeps.clear
    {size : Nat}
    {history : List Exchange}
    {memory : Memory}
    (keeps : Keeps size history memory) :
    Keeps size (history ++ [.cleared]) memory.clear where
  sameSize := (size_zeroed memory.size).trans keeps.sameSize
  words := fun address _ value => by
    rw [holds_concat_iff, Memory.clear, word_zeroed]
    simp [(written_ne_cleared _ _).symm]

/-- A memory after a store keeps a history in which the write comes last. -/
theorem Keeps.store
    {size : Nat}
    {history : List Exchange}
    {memory : Memory}
    (keeps : Keeps size history memory)
    {target : Word}
    (inside : Inside size target)
    (stored : Word) :
    Keeps size (history ++ [.written target stored]) (memory.store target stored) where
  sameSize := (memory.size_store target stored).trans keeps.sameSize
  words := fun address addressInside value => by
    rw [holds_concat_iff]
    by_cases same : address = target
    · subst same
      have found : fault? memory.size address = none := by
        rwa [keeps.sameSize, ← inside_iff]
      rw [word_store found]
      simp [written_inj, written_ne_cleared, @eq_comm Word stored value]
    · have elsewhere : address.index ≠ target.index :=
        fun sameIndex => same (eq_of_index addressInside inside sameIndex)
      rw [memory.word_store_of_ne stored elsewhere, ← keeps.words address addressInside value]
      simp [written_inj, written_ne_cleared, Ne.symm same]

/-! ## What a memory answers -/

/-- An access is fine, or refused for one reason, a misaligned address before all others. -/
theorem fault?_cases
    (size : Nat)
    (address : Word) :
    Inside size address ∧ fault? size address = none ∨
      address.toNat % 4 ≠ 0 ∧ fault? size address = some .misaligned ∨
        (address.toNat % 4 = 0 ∧ size ≤ address.toNat / 4) ∧
          fault? size address = some .outOfBounds := by
  cases found : fault? size address with
  | none => exact .inl ⟨inside_iff.mpr found, rfl⟩
  | some fault =>
      rcases fault?_eq_some_iff.mp found with ⟨misaligned, rfl⟩ | ⟨aligned, outside, rfl⟩
      · exact .inr (.inl ⟨misaligned, rfl⟩)
      · exact .inr (.inr ⟨⟨aligned, by omega⟩, rfl⟩)

/-- A request with a fault is answered by it and changes nothing. -/
theorem serve_of_fault
    {memory : Memory}
    {request : Request}
    {address : Word}
    {access : Access}
    (accesses : request.access? = some (address, access))
    {fault : MemoryFault}
    (found : fault? memory.size address = some fault) :
    memory.serve request = (.error ⟨address, access, fault⟩, memory) := by
  cases request <;>
    simp only [Request.access?, Option.some.injEq, Prod.mk.injEq, reduceCtorEq] at accesses <;>
    obtain ⟨rfl, rfl⟩ := accesses <;>
    simp [serve, read, write, check, found, Except.map]

/-- What is carried out of a request, where an access it makes is fine. -/
theorem serve_of_fine
    {memory : Memory}
    {request : Request}
    (fine :
      ∀ address access,
        request.access? = some (address, access) → fault? memory.size address = none) :
    memory.serve request =
      match request with
      | .read address => (.ok (.word (memory.word address.index)), memory)
      | .write address value => (.ok .done, memory.store address value)
      | .check address _ => (.ok (.index address.index), memory)
      | .clear => (.ok .done, memory.clear) := by
  cases request with
  | read address => simp [serve, read, check, fine address .load rfl, Except.map]
  | write address value => simp [serve, write, check, fine address .store rfl, Except.map]
  | check address access => simp [serve, check, fine address access rfl, Except.map]
  | clear => rfl

namespace Keeps

variable {size : Nat} {history : List Exchange} {memory : Memory}

/-- What a memory keeps is what its history says was written last. -/
theorem holds_word
    (keeps : Keeps size history memory)
    {address : Word}
    (inside : Inside size address) :
    Holds history address (memory.word address.index) :=
  (keeps.words address inside _).mpr rfl

/-- A request is answered, or refused for the fault of its address. -/
theorem serve_cases
    (keeps : Keeps size history memory)
    (request : Request) :
    (∀ address access,
      request.access? = some (address, access) →
        Inside size address ∧ fault? memory.size address = none) ∨
    ∃ address access fault,
      request.access? = some (address, access) ∧
        (address.toNat % 4 ≠ 0 ∧ fault = .misaligned ∨
          (address.toNat % 4 = 0 ∧ size ≤ address.toNat / 4) ∧ fault = .outOfBounds) ∧
        memory.serve request = (.error ⟨address, access, fault⟩, memory) := by
  cases accesses : request.access? with
  | none => exact .inl (by simp)
  | some access =>
      obtain ⟨address, access⟩ := access
      have served {fault : MemoryFault} (found : fault? memory.size address = some fault) :=
        serve_of_fault accesses found
      rw [keeps.sameSize] at served ⊢
      rcases fault?_cases size address with
        ⟨inside, fine⟩ | ⟨misaligned, found⟩ | ⟨outside, found⟩
      · refine .inl fun _ _ same => ?_
        obtain ⟨rfl, rfl⟩ := Prod.mk.inj (Option.some.inj same)
        exact ⟨inside, fine⟩
      · exact .inr ⟨address, access, _, rfl, .inl ⟨misaligned, rfl⟩, served found⟩
      · exact .inr ⟨address, access, _, rfl, .inr ⟨outside, rfl⟩, served found⟩

/-- A memory answers as its history tells. -/
theorem answers
    (keeps : Keeps size history memory)
    (request : Request) :
    Answers size history request (memory.serve request).1 := by
  rcases keeps.serve_cases request with
    fine | ⟨address, access, fault, accesses, ⟨misaligned, rfl⟩ | ⟨outside, rfl⟩, served⟩
  · rw [serve_of_fine fun address access accesses => (fine address access accesses).2]
    cases request with
    | read address =>
        have inside := (fine address .load rfl).1
        exact .read inside (keeps.holds_word inside)
    | write address value => exact .write (fine address .store rfl).1
    | check address access => exact .check (fine address access rfl).1
    | clear => exact .clear
  · rw [served]
    exact .misaligned accesses misaligned
  · rw [served]
    exact .outOfBounds accesses outside.1 outside.2

/-- The history leaves no choice of an answer. -/
theorem eq_of_answers
    (keeps : Keeps size history memory)
    {request : Request}
    {result : Except AccessError Reply}
    (answers : Answers size history request result) :
    (memory.serve request).1 = result := by
  have fine {address : Word} (inside : Inside size address) : fault? memory.size address = none := by
    rwa [keeps.sameSize, ← inside_iff]
  have refused
      {address : Word}
      {access : Access}
      (accesses : request.access? = some (address, access))
      {fault : MemoryFault}
      (found : fault? size address = some fault) :
      (memory.serve request).1 = .error ⟨address, access, fault⟩ := by
    rw [← keeps.sameSize] at found
    rw [serve_of_fault accesses found]
  cases answers with
  | read inside holds =>
      rw [serve_of_fine (by simp [Request.access?, fine inside])]
      rw [(keeps.words _ inside _).mp holds]
  | write inside => rw [serve_of_fine (by simp [Request.access?, fine inside])]
  | check inside =>
      rw [serve_of_fine (by simp [Request.access?, fine inside])]
      rfl
  | clear => rfl
  | misaligned accesses misaligned =>
      exact refused accesses (fault?_eq_some_iff.mpr (.inl ⟨misaligned, rfl⟩))
  | outOfBounds accesses aligned outside =>
      exact refused accesses (fault?_eq_some_iff.mpr (.inr ⟨aligned, by omega, rfl⟩))

/-- Serving a request, the memory goes on to hold what its history tells. -/
theorem serve
    (keeps : Keeps size history memory)
    (request : Request) :
    Keeps size (history ++ [⟨request, (memory.serve request).1⟩]) (memory.serve request).2 := by
  rcases keeps.serve_cases request with fine | ⟨address, access, fault, accesses, _, served⟩
  · rw [serve_of_fine fun address access accesses => (fine address access accesses).2]
    cases request with
    | read address =>
        exact keeps.of_unchanged (by simp [Exchange.cleared]) (by simp [Exchange.written])
    | write address value => exact keeps.store (fine address .store rfl).1 value
    | check address access =>
        exact keeps.of_unchanged (by simp [Exchange.cleared]) (by simp [Exchange.written])
    | clear => exact keeps.clear
  · rw [served]
    exact keeps.of_unchanged (by simp [Exchange.cleared]) (by simp [Exchange.written])

/-- Whatever requests are served, the memory goes on to hold what its history tells. -/
theorem serveAll
    (keeps : Keeps size history memory)
    (requests : List Request) :
    Keeps size (history ++ (Memory.serveAll requests memory).1)
      (Memory.serveAll requests memory).2 := by
  induction requests generalizing history memory with
  | nil =>
      rwa [Memory.serveAll, List.append_nil]
  | cons request requests inductionHypothesis =>
      have later := inductionHypothesis (keeps.serve request)
      rwa [List.append_assoc] at later

end Keeps

/-- A refused request changes nothing. -/
theorem serve_of_refused
    {memory : Memory}
    {request : Request}
    {error : AccessError}
    (refused : (memory.serve request).1 = .error error) :
    (memory.serve request).2 = memory := by
  cases request with
  | read address => rfl
  | write address value =>
      cases written : memory.write address value with
      | ok after => simp [serve, written] at refused
      | error reason => simp [serve, written]
  | check address access => rfl
  | clear => simp [serve] at refused

/-- A request for an access is answered exactly if its address is inside the memory. -/
theorem Keeps.answered_iff
    {size : Nat}
    {history : List Exchange}
    {memory : Memory}
    (keeps : Keeps size history memory)
    {request : Request}
    {address : Word}
    {access : Access}
    (accesses : request.access? = some (address, access)) :
    (∃ reply, (memory.serve request).1 = .ok reply) ↔ Inside size address := by
  have answers := keeps.answers request
  constructor
  · rintro ⟨reply, replied⟩
    rw [replied] at answers
    cases answers with
    | clear => simp [Request.access?] at accesses
    | read inside _ =>
        obtain ⟨rfl, _⟩ := Prod.mk.inj (Option.some.inj accesses)
        exact inside
    | write inside =>
        obtain ⟨rfl, _⟩ := Prod.mk.inj (Option.some.inj accesses)
        exact inside
    | check inside =>
        obtain ⟨rfl, _⟩ := Prod.mk.inj (Option.some.inj accesses)
        exact inside
  · intro inside
    generalize (memory.serve request).1 = result at answers
    cases answers with
    | misaligned same misaligned =>
        obtain ⟨rfl, _⟩ := Prod.mk.inj (Option.some.inj (accesses.symm.trans same))
        exact absurd inside.1 misaligned
    | outOfBounds same _ outside =>
        obtain ⟨rfl, _⟩ := Prod.mk.inj (Option.some.inj (accesses.symm.trans same))
        exact absurd inside.2 (Nat.not_lt.mpr outside)
    | _ => exact ⟨_, rfl⟩

/-- A write shows at its own address alone, whether it is carried out or refused. -/
theorem read_after_write_elsewhere
    (memory : Memory)
    {target address : Word}
    (elsewhere : address ≠ target)
    (value : Word) :
    (memory.serve (.write target value)).2.read address = memory.read address := by
  rcases fault?_cases memory.size target with ⟨inside, fine⟩ | ⟨_, refused⟩ | ⟨_, refused⟩
  · have stored : (memory.serve (.write target value)).2 = memory.store target value := by
      simp [serve, write, check, fine, Except.map]
    rw [stored]
    rcases fault?_cases memory.size address with
      ⟨addressInside, found⟩ | ⟨_, found⟩ | ⟨_, found⟩
    · have apart : address.index ≠ target.index :=
        fun same => elsewhere (eq_of_index addressInside inside same)
      simp [read, check, size_store, found, Except.map, memory.word_store_of_ne value apart]
    · simp [read, check, size_store, found, Except.map]
    · simp [read, check, size_store, found, Except.map]
  · rw [serve_of_fault rfl refused]
  · rw [serve_of_fault rfl refused]

/--
A memory that was zero at first and has served any requests is a map of words. It has the
size that it began with, and an access is answered exactly at the aligned addresses inside
it. The history of the memory decides every answer: a read finds the latest word written at
its address since the last clear, or zero if there is none, and a refusal names the address,
the direction and the fault. What is refused changes nothing, and a write changes no other
address. The memory may just as well be changed in place, request by request and cell by
cell: no cell is set before a request is refused.
-/
theorem serves_as_map
    (size : Nat)
    (requests : List Request) :
    ∃ history memory,
      serveAll requests (zeroed size) = (history, memory) ∧
        (serveAllInTurn requests).run (zeroed size) = (history, memory) ∧
        history.map Exchange.request = requests ∧
        memory.size = size ∧
        (∀ request address access,
          request.access? = some (address, access) →
            ((∃ reply, (memory.serve request).1 = .ok reply) ↔ Inside size address)) ∧
        (∀ request result,
          (memory.serve request).1 = result ↔ Answers size history request result) ∧
        (∀ request error,
          (memory.serve request).1 = .error error → (memory.serve request).2 = memory) ∧
        (∀ request, (serveInTurn request).run.run memory = memory.serve request) ∧
        ∀ target value address,
          address ≠ target →
            (memory.serve (.write target value)).2.read address = memory.read address := by
  have keeps := (keeps_zeroed size).serveAll requests
  rw [List.nil_append] at keeps
  refine ⟨_, _, rfl, serveAllInTurn_run requests (zeroed size),
    map_request_serveAll requests (zeroed size), keeps.sameSize,
    fun _ _ _ accesses => keeps.answered_iff accesses, fun request result => ⟨?_, ?_⟩,
    fun _ _ => serve_of_refused, serveInTurn_run _, fun _ value _ elsewhere =>
      read_after_write_elsewhere _ elsewhere value⟩
  · rintro rfl
    exact keeps.answers request
  · exact keeps.eq_of_answers

end TinyMips.Memory
