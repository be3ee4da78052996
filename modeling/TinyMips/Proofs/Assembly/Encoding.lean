import TinyMips.Proofs.Assembly.Slot
import TinyMips.Proofs.Grammar.Source

namespace TinyMips

/-!
# What a statement stands for

A statement of the language stands for an instruction exactly if its mnemonic is known,
it has as many operands as the mnemonic asks for, and each of them fits its slot. The
instruction then holds what the operands say, each value in its own place. Otherwise the
first of these conditions that fails, with the operands taken from left to right, is the
one that is reported.
-/

open Assembly

namespace Mnemonic

/-- What the mnemonic asks of its operands, from left to right. -/
def slots : Mnemonic → List Slot
  | .and | .slt => [.register, .register, .register]
  | .addi => [.register, .register, .signed]
  | .lui => [.register, .unsigned]
  | .lw | .sw => [.register, .memory]
  | .beq => [.register, .register, .target]

/-- There is a slot for every operand that is counted. -/
theorem length_slots (mnemonic : Mnemonic) : mnemonic.slots.length = mnemonic.shape.arity := by
  cases mnemonic <;> rfl

/-- A mnemonic is found under its name, in any case of the letters. -/
theorem ofText?_eq_some_iff
    {text : Text}
    {mnemonic : Mnemonic} :
    ofText? text = some mnemonic ↔ Text.lowercase text = mnemonic.name := by
  constructor
  · intro found
    unfold ofText? at found
    have same := List.find?_some found
    exact (of_decide_eq_true same).symm
  · intro spelled
    rw [ofText?, spelled]
    cases mnemonic <;> decide

/-- No mnemonic is found exactly where a text is the name of none. -/
theorem ofText?_eq_none_iff
    {text : Text} :
    ofText? text = none ↔ ∀ mnemonic : Mnemonic, Text.lowercase text ≠ mnemonic.name := by
  rw [Option.eq_none_iff_forall_not_mem]
  exact forall_congr' fun mnemonic => not_congr ofText?_eq_some_iff

end Mnemonic

namespace Instruction

/-- What the instruction holds, in the order of its operands. -/
def values : Instruction → List SlotValue
  | .and rd rs rt | .slt rd rs rt => [.register rd, .register rs, .register rt]
  | .addi rt rs imm => [.register rt, .register rs, .integer imm.toInt]
  | .lui rt imm => [.register rt, .integer imm.toNat]
  | .lw rt base offset | .sw rt base offset => [.register rt, .memory offset.toInt base]
  | .beq rs rt offset => [.register rs, .register rt, .integer offset.toInt]

/-- An instruction is known by its mnemonic and by what it holds. -/
theorem eq_of_values
    {first second : Instruction}
    (sameMnemonic : first.mnemonic = second.mnemonic)
    (sameValues : first.values = second.values) :
    first = second := by
  cases first <;> cases second <;>
    simp_all only [mnemonic, reduceCtorEq, values, List.cons.injEq, SlotValue.register.injEq,
      SlotValue.integer.injEq, SlotValue.memory.injEq, BitVec.toInt_inj, Int.natCast_inj,
      BitVec.toNat_inj, and_true]

end Instruction

namespace Assembly

open Grammar Operand

section

variable (table : SymbolTable) (index : Nat)

/-- Operands fit their slots, one after the other, and say values there. -/
inductive AllFit : List Slot → List Operand → List SlotValue → Prop where
  | nil :
      AllFit [] [] []
  | cons
      {slot : Slot}
      {slots : List Slot}
      {operand : Operand}
      {operands : List Operand}
      {value : SlotValue}
      {values : List SlotValue}
      (fits : Fits table index slot operand value)
      (later : AllFit slots operands values) :
      AllFit (slot :: slots) (operand :: operands) (value :: values)

/-- The leftmost operand that does not fit its slot offends it. -/
inductive FirstOffends : List Slot → List Operand → AssemblyFault → Prop where
  | here
      {slot : Slot}
      {slots : List Slot}
      {operand : Operand}
      {operands : List Operand}
      {fault : AssemblyFault}
      (offends : Offends table index slot operand fault) :
      FirstOffends (slot :: slots) (operand :: operands) fault
  | later
      {slot : Slot}
      {slots : List Slot}
      {operand : Operand}
      {operands : List Operand}
      {value : SlotValue}
      {fault : AssemblyFault}
      (fits : Fits table index slot operand value)
      (later : FirstOffends slots operands fault) :
      FirstOffends (slot :: slots) (operand :: operands) fault

/-- A statement meets all conditions of a mnemonic, and says values in its slots. -/
structure Meets
    (statement : Statement)
    (mnemonic : Mnemonic)
    (values : List SlotValue) :
    Prop where
  spelled : Text.lowercase statement.mnemonic = mnemonic.name
  count : statement.operands.length = mnemonic.shape.arity
  fit : AllFit table index mnemonic.slots statement.operands values

/-- The first condition that a statement does not meet, as a fault. -/
inductive FirstUnmet (statement : Statement) : AssemblyFault → Prop where
  | mnemonic
      (unknown : ∀ mnemonic : Mnemonic, Text.lowercase statement.mnemonic ≠ mnemonic.name) :
      FirstUnmet statement (.malformed (.unknownMnemonic statement.mnemonic))
  | count
      {mnemonic : Mnemonic}
      (spelled : Text.lowercase statement.mnemonic = mnemonic.name)
      (miscounted : statement.operands.length ≠ mnemonic.shape.arity) :
      FirstUnmet statement (.malformed (.operandCount mnemonic statement.operands.length))
  | operand
      {mnemonic : Mnemonic}
      {fault : AssemblyFault}
      (spelled : Text.lowercase statement.mnemonic = mnemonic.name)
      (count : statement.operands.length = mnemonic.shape.arity)
      (offends : FirstOffends table index mnemonic.slots statement.operands fault) :
      FirstUnmet statement fault

/-- Resolve operands in their slots, from left to right. -/
def resolveAll : List Slot → List Operand → Except AssemblyFault (List SlotValue)
  | slot :: slots, operand :: operands => do
      let value ← resolve table index slot operand
      let values ← resolveAll slots operands
      return value :: values
  | _, _ => return []

end

variable {table : SymbolTable} {index : Nat}

/-- Operands of the language are resolved exactly if all of them fit. -/
theorem resolveAll_eq_ok_iff
    {slots : List Slot}
    {operands : List Operand}
    {values : List SlotValue}
    (sameLength : operands.length = slots.length)
    (areOperands : ∀ operand ∈ operands, IsOperand operand.text operand) :
    resolveAll table index slots operands = .ok values ↔
      AllFit table index slots operands values := by
  induction slots generalizing operands values with
  | nil =>
      obtain rfl := List.length_eq_zero_iff.mp sameLength
      constructor
      · intro resolved
        obtain rfl := Except.ok.inj resolved
        exact .nil
      · rintro ⟨⟩
        rfl
  | cons slot slots inductionHypothesis =>
      cases operands with
      | nil => simp at sameLength
      | cons operand operands =>
          obtain ⟨isOperand, areLater⟩ := List.forall_mem_cons.mp areOperands
          have fewer : operands.length = slots.length := Nat.succ_inj.mp sameLength
          simp only [resolveAll, bind_eq_ok_iff, resolve_eq_ok_iff isOperand,
            inductionHypothesis fewer areLater]
          constructor
          · rintro ⟨value, fits, later, allFit, made⟩
            obtain rfl := Except.ok.inj made
            exact .cons fits allFit
          · intro allFit
            cases allFit with
            | cons fits later => exact ⟨_, fits, _, later, rfl⟩

/-- Operands of the language are refused exactly for the leftmost one that does not fit. -/
theorem resolveAll_eq_error_iff
    {slots : List Slot}
    {operands : List Operand}
    {fault : AssemblyFault}
    (areOperands : ∀ operand ∈ operands, IsOperand operand.text operand) :
    resolveAll table index slots operands = .error fault ↔
      FirstOffends table index slots operands fault := by
  induction slots generalizing operands with
  | nil =>
      constructor
      · intro resolved
        simp [resolveAll, pure, Except.pure] at resolved
      · rintro ⟨⟩
  | cons slot slots inductionHypothesis =>
      cases operands with
      | nil =>
          constructor
          · intro resolved
            simp [resolveAll, pure, Except.pure] at resolved
          · rintro ⟨⟩
      | cons operand operands =>
          obtain ⟨isOperand, areLater⟩ := List.forall_mem_cons.mp areOperands
          simp only [resolveAll, bind_eq_error_iff, resolve_eq_error_iff isOperand,
            resolve_eq_ok_iff isOperand, inductionHypothesis areLater]
          constructor
          · rintro (offends | ⟨value, fits, later | ⟨values, _, impossible⟩⟩)
            · exact .here offends
            · exact .later fits later
            · simp [pure, Except.pure] at impossible
          · rintro (offends | ⟨fits, later⟩)
            · exact .inl offends
            · exact .inr ⟨_, fits, .inl later⟩

/-- An instruction holds what its operands are resolved to. -/
theorem map_values_instruction
    {mnemonic : Mnemonic}
    {operands : List Operand}
    (count : operands.length = mnemonic.shape.arity) :
    (instruction table index mnemonic operands).map
        (fun instruction => (instruction.mnemonic, instruction.values)) =
      (resolveAll table index mnemonic.slots operands).map fun values => (mnemonic, values) := by
  cases mnemonic with
  | and
  | slt =>
      obtain ⟨a, b, c, rfl⟩ := List.length_eq_three.mp count
      simp only [instruction, resolveAll, resolve, Mnemonic.slots]
      cases orFault a.asRegister <;> cases orFault b.asRegister <;>
        cases orFault c.asRegister <;> rfl
  | addi =>
      obtain ⟨a, b, c, rfl⟩ := List.length_eq_three.mp count
      simp only [instruction, resolveAll, resolve, Mnemonic.slots]
      cases orFault a.asRegister <;> cases orFault b.asRegister <;>
        cases orFault c.asSignedHalf <;> rfl
  | lui =>
      obtain ⟨a, b, rfl⟩ := List.length_eq_two.mp count
      simp only [instruction, resolveAll, resolve, Mnemonic.slots]
      cases orFault a.asRegister <;> cases orFault b.asUnsignedHalf <;> rfl
  | lw
  | sw =>
      obtain ⟨a, b, rfl⟩ := List.length_eq_two.mp count
      simp only [instruction, resolveAll, resolve, Mnemonic.slots]
      cases orFault a.asRegister <;> cases orFault b.asMemory <;> rfl
  | beq =>
      obtain ⟨a, b, c, rfl⟩ := List.length_eq_three.mp count
      simp only [instruction, resolveAll, resolve, Mnemonic.slots]
      cases orFault a.asRegister <;> cases orFault b.asRegister <;>
        cases branchField table index c <;> rfl

/-- With as many operands as slots, an instruction is made exactly if all operands are resolved. -/
theorem instruction_eq_ok_iff
    {mnemonic : Mnemonic}
    {operands : List Operand}
    (count : operands.length = mnemonic.shape.arity)
    {result : Instruction} :
    instruction table index mnemonic operands = .ok result ↔
      result.mnemonic = mnemonic ∧
        resolveAll table index mnemonic.slots operands = .ok result.values := by
  have mapped :
      (instruction table index mnemonic operands).map _ =
        (resolveAll table index mnemonic.slots operands).map _ :=
    map_values_instruction count
  constructor
  · intro made
    rw [made] at mapped
    obtain ⟨values, resolved, same⟩ := map_eq_ok_iff.mp mapped.symm
    obtain ⟨rfl, rfl⟩ := Prod.mk.inj same
    exact ⟨rfl, resolved⟩
  · rintro ⟨rfl, resolved⟩
    rw [resolved] at mapped
    obtain ⟨other, made, same⟩ := map_eq_ok_iff.mp mapped
    obtain ⟨sameMnemonic, sameValues⟩ := Prod.mk.inj same
    rw [made, Instruction.eq_of_values sameMnemonic sameValues]

/-- With as many operands as slots, a fault is the fault of resolving the operands. -/
theorem instruction_eq_error_iff
    {mnemonic : Mnemonic}
    {operands : List Operand}
    (count : operands.length = mnemonic.shape.arity)
    {fault : AssemblyFault} :
    instruction table index mnemonic operands = .error fault ↔
      resolveAll table index mnemonic.slots operands = .error fault := by
  have mapped :
      (instruction table index mnemonic operands).map _ =
        (resolveAll table index mnemonic.slots operands).map _ :=
    map_values_instruction count
  cases made : instruction table index mnemonic operands with
  | ok result =>
      obtain ⟨_, resolved⟩ := (instruction_eq_ok_iff count).mp made
      simp [resolved]
  | error other =>
      rw [made] at mapped
      cases resolved : resolveAll table index mnemonic.slots operands with
      | ok values => simp [resolved, Except.map] at mapped
      | error another =>
          rw [resolved] at mapped
          obtain rfl := Except.error.inj mapped
          simp

/-- With another number of operands, that number is the fault. -/
theorem instruction_of_miscounted
    {mnemonic : Mnemonic}
    {operands : List Operand}
    (miscounted : operands.length ≠ mnemonic.shape.arity) :
    instruction table index mnemonic operands =
      .error (.malformed (.operandCount mnemonic operands.length)) := by
  unfold instruction
  split <;> first | exact absurd rfl miscounted | rfl

/-! ## Statements -/

/-- A statement is encoded as its mnemonic says. -/
theorem encodeStatement_of_spelled
    {statement : Statement}
    {mnemonic : Mnemonic}
    (spelled : Text.lowercase statement.mnemonic = mnemonic.name) :
    encodeStatement table index statement =
      instruction table index mnemonic statement.operands := by
  rw [encodeStatement, Mnemonic.ofText?_eq_some_iff.mpr spelled]

/-- A statement becomes an instruction exactly if it meets the conditions of its mnemonic. -/
theorem encodeStatement_eq_ok_iff
    {statement : Statement}
    (areOperands : ∀ operand ∈ statement.operands, IsOperand operand.text operand)
    {instruction : Instruction} :
    encodeStatement table index statement = .ok instruction ↔
      Meets table index statement instruction.mnemonic instruction.values := by
  constructor
  · intro encoded
    cases found : Mnemonic.ofText? statement.mnemonic with
    | none => simp [encodeStatement, found] at encoded
    | some mnemonic =>
        have spelled := Mnemonic.ofText?_eq_some_iff.mp found
        rw [encodeStatement_of_spelled spelled] at encoded
        by_cases count : statement.operands.length = mnemonic.shape.arity
        · obtain ⟨rfl, resolved⟩ := (instruction_eq_ok_iff count).mp encoded
          have sameLength := count.trans instruction.mnemonic.length_slots.symm
          exact ⟨spelled, count, (resolveAll_eq_ok_iff sameLength areOperands).mp resolved⟩
        · simp [instruction_of_miscounted count] at encoded
  · intro meets
    have sameLength := meets.count.trans instruction.mnemonic.length_slots.symm
    rw [encodeStatement_of_spelled meets.spelled, instruction_eq_ok_iff meets.count]
    exact ⟨rfl, (resolveAll_eq_ok_iff sameLength areOperands).mpr meets.fit⟩

/-- What a statement says in the slots of a mnemonic whose conditions it meets can be held. -/
theorem exists_encodeStatement_of_meets
    {statement : Statement}
    (areOperands : ∀ operand ∈ statement.operands, IsOperand operand.text operand)
    {mnemonic : Mnemonic}
    {values : List SlotValue}
    (meets : Meets table index statement mnemonic values) :
    ∃ instruction,
      encodeStatement table index statement = .ok instruction ∧
        instruction.mnemonic = mnemonic ∧ instruction.values = values := by
  have sameLength := meets.count.trans mnemonic.length_slots.symm
  have resolved := (resolveAll_eq_ok_iff sameLength areOperands).mpr meets.fit
  have mapped :
      (Assembly.instruction table index mnemonic statement.operands).map _ =
        (resolveAll table index mnemonic.slots statement.operands).map _ :=
    map_values_instruction meets.count
  rw [resolved] at mapped
  obtain ⟨instruction, made, same⟩ := map_eq_ok_iff.mp mapped
  obtain ⟨sameMnemonic, sameValues⟩ := Prod.mk.inj same
  exact ⟨instruction, (encodeStatement_of_spelled meets.spelled).trans made, sameMnemonic,
    sameValues⟩

/-- A statement is refused exactly for the first condition that it does not meet. -/
theorem encodeStatement_eq_error_iff
    {statement : Statement}
    (areOperands : ∀ operand ∈ statement.operands, IsOperand operand.text operand)
    {fault : AssemblyFault} :
    encodeStatement table index statement = .error fault ↔
      FirstUnmet table index statement fault := by
  constructor
  · intro failed
    cases found : Mnemonic.ofText? statement.mnemonic with
    | none =>
        rw [encodeStatement, found] at failed
        obtain rfl := Except.error.inj failed
        exact .mnemonic (Mnemonic.ofText?_eq_none_iff.mp found)
    | some mnemonic =>
        have spelled := Mnemonic.ofText?_eq_some_iff.mp found
        rw [encodeStatement_of_spelled spelled] at failed
        by_cases count : statement.operands.length = mnemonic.shape.arity
        · rw [instruction_eq_error_iff count, resolveAll_eq_error_iff areOperands] at failed
          exact .operand spelled count failed
        · rw [instruction_of_miscounted count] at failed
          obtain rfl := Except.error.inj failed
          exact .count spelled count
  · intro unmet
    cases unmet with
    | mnemonic unknown =>
        rw [encodeStatement, Mnemonic.ofText?_eq_none_iff.mpr unknown]
    | count spelled miscounted =>
        rw [encodeStatement_of_spelled spelled, instruction_of_miscounted miscounted]
    | operand spelled count offends =>
        rw [encodeStatement_of_spelled spelled, instruction_eq_error_iff count]
        exact (resolveAll_eq_error_iff areOperands).mpr offends

end Assembly

/-! ## Statements of a source -/

namespace Grammar

/-- Each of the operands of a statement has the form of one. -/
theorem AreOperands.isOperand
    {text : Text}
    {operands : List Operand}
    (areOperands : AreOperands text operands) :
    ∀ operand ∈ operands, IsOperand operand.text operand := by
  have alone {text : Text} {operand : Operand} (isOperand : IsOperand text operand) :
      IsOperand operand.text operand := by
    rwa [Operand.text_of_isOperand isOperand]
  induction areOperands with
  | one isOperand =>
      simpa using alone isOperand
  | more isOperand _ _ inductionHypothesis =>
      exact List.forall_mem_cons.mpr ⟨alone isOperand, inductionHypothesis⟩

theorem IsInstruction.isOperand
    {text : Text}
    {statement : Statement}
    (isInstruction : IsInstruction text statement) :
    ∀ operand ∈ statement.operands, IsOperand operand.text operand := by
  cases isInstruction with
  | bare => simp
  | applied _ _ _ _ areOperands => exact areOperands.isOperand

end Grammar

namespace Item

open Grammar

/-- A statement of a source that can be read is an instruction of the language. -/
theorem isInstruction_of_ofText
    {source : Text}
    {items : List Item}
    (accepted : ofText source = .ok items)
    {line : Nat}
    {statement : Statement}
    (member : .statement line statement ∈ items) :
    ∃ text, IsInstruction text statement := by
  obtain ⟨row, ⟨names, _⟩, number, isLine, inContent⟩ := exists_isLine_of_mem accepted member
  obtain ⟨rfl, _⟩ : _ = some statement ∧ number = line := by
    simpa [ofContent] using inContent
  exact ⟨_, (Statement.standsOn_of_isLine isLine).isInstruction⟩

end Item

namespace Assembly

/--
A statement of a source that can be read becomes an instruction exactly if its mnemonic is
known in some case, it has as many operands as this mnemonic asks for, and every operand
fits its slot; the instruction is then of this mnemonic and holds what the operands say, in
their order. Otherwise the fault is that of the first of these conditions that is not met.
Every operand that is counted has a slot.
-/
theorem encodeStatement_is_exact
    {source : Text}
    {items : List Item}
    (accepted : Item.ofText source = .ok items)
    {line : Nat}
    {statement : Statement}
    (member : .statement line statement ∈ items)
    (table : SymbolTable)
    (index : Nat) :
    (∀ mnemonic values,
      Meets table index statement mnemonic values →
        ∃ instruction,
          encodeStatement table index statement = .ok instruction ∧
            instruction.mnemonic = mnemonic ∧ instruction.values = values) ∧
    (∀ instruction,
      encodeStatement table index statement = .ok instruction ↔
        Meets table index statement instruction.mnemonic instruction.values) ∧
    (∀ fault,
      encodeStatement table index statement = .error fault ↔
        FirstUnmet table index statement fault) ∧
    ∀ mnemonic : Mnemonic, mnemonic.slots.length = mnemonic.shape.arity := by
  obtain ⟨text, isInstruction⟩ := Item.isInstruction_of_ofText accepted member
  have areOperands := isInstruction.isOperand
  refine ⟨?_, ?_, ?_, Mnemonic.length_slots⟩
  · intro mnemonic values meets
    exact exists_encodeStatement_of_meets areOperands meets
  · intro instruction
    exact encodeStatement_eq_ok_iff areOperands
  · intro fault
    exact encodeStatement_eq_error_iff areOperands

/-- A load whose names are spelled in two ways. -/
def spelledLoad : Statement where
  mnemonic := Text.ofString "LW"
  operands :=
    [.register (Text.ofString "$T0"), .memory (some (Text.ofString "-4")) (Text.ofString "sp")]
  text := Text.ofString "LW $T0, -4(sp)"

/-- A sum with an integer in the place of a register, and a register in that of an integer. -/
def faultySum : Statement where
  mnemonic := Text.ofString "addi"
  operands :=
    [.symbol (Text.ofString "t0"), .immediate (Text.ofString "32768"),
      .register (Text.ofString "$nil")]
  text := Text.ofString "addi t0, 32768, $nil"

/-- The load holds what it says, and of the two faults of the sum the left one is reported. -/
theorem spelledLoad_meets_and_faultySum_fails :
    Item.ofText (spelledLoad.text ++ '\n' :: faultySum.text) =
        .ok [.statement 1 spelledLoad, .statement 2 faultySum] ∧
      encodeStatement .empty 0 spelledLoad = .ok (.lw ⟨8⟩ ⟨29⟩ 0xFFFC) ∧
      Meets .empty 0 spelledLoad .lw [.register ⟨8⟩, .memory (-4) ⟨29⟩] ∧
      FirstUnmet .empty 1 faultySum
        (.malformed (.wrongKind .register (Text.ofString "32768"))) := by
  have accepted :
      Item.ofText (spelledLoad.text ++ '\n' :: faultySum.text) =
        .ok [.statement 1 spelledLoad, .statement 2 faultySum] := by
    decide +kernel
  have encoded : encodeStatement .empty 0 spelledLoad = .ok (.lw ⟨8⟩ ⟨29⟩ 0xFFFC) := by
    decide +kernel
  have inSecond : Item.statement 2 faultySum ∈ [.statement 1 spelledLoad, .statement 2 faultySum] :=
    List.mem_cons_of_mem _ List.mem_cons_self
  obtain ⟨_, encodes, _⟩ := encodeStatement_is_exact accepted List.mem_cons_self .empty 0
  obtain ⟨_, _, refuses, _⟩ := encodeStatement_is_exact accepted inSecond .empty 1
  exact ⟨accepted, encoded, (encodes _).mp encoded, (refuses _).mp (by decide +kernel)⟩

end Assembly

end TinyMips
