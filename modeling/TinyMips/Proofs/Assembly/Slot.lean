import TinyMips.Proofs.Source.Slot
import TinyMips.Proofs.Surface.Statement

namespace TinyMips.Assembly

/-!
# What operands have to say

Every operand of a statement stands in a slot. Which operands fit a slot, with which
value, and what is wrong with any other operand, is told by relations of their own, which
know registers by their spellings and integers by the numbers they denote. Resolving an
operand of the language gives the value or the fault that the relations allow.
-/

open Grammar Operand

/-- What a statement asks of one of its operands. -/
inductive Slot where
  /-- The name of a register. -/
  | register
  /-- An integer within the bounds of a signed field. -/
  | signed
  /-- An integer within the bounds of an unsigned field. -/
  | unsigned
  /-- An offset from a base register. -/
  | memory
  /-- A label, or the distance to a branch target. -/
  | target
  deriving DecidableEq, Repr

/-- What an operand says in its slot. -/
inductive SlotValue where
  | register (reg : Reg)
  | integer (value : Int)
  | memory (offset : Int) (base : Reg)
  deriving DecidableEq, Repr

/-- A literal denotes a value within bounds. -/
structure DenotesWithin (bounds : Bounds) (literal : Text) (value : Int) : Prop where
  denotes : Literal.Denotes literal value
  least : bounds.least ≤ value
  greatest : value ≤ bounds.greatest

/-- An offset that is left out is zero, and one that is given denotes a value within its field. -/
inductive IsOffset : Option Text → Int → Prop where
  | omitted :
      IsOffset none 0
  | given
      {literal : Text}
      {value : Int}
      (within : DenotesWithin .signedHalf literal value) :
      IsOffset (some literal) value

/-- A literal denotes no value of at most 64 bits, or none within bounds. -/
inductive LiteralFault (bounds : Bounds) : Text → AssemblyFault → Prop where
  | tooLarge
      {literal : Text}
      {value : Int}
      (denotes : Literal.Denotes literal value)
      (large : Literal.maximum < value.natAbs) :
      LiteralFault bounds literal (.malformed (.literalTooLarge literal))
  | outside
      {literal : Text}
      {value : Int}
      (denotes : Literal.Denotes literal value)
      (small : value.natAbs ≤ Literal.maximum)
      (outside : value < bounds.least ∨ bounds.greatest < value) :
      LiteralFault bounds literal (.immediateOutOfBounds value bounds)

/-- The kind that an operand is said to lack. -/
def Slot.kind : Slot → SlotKind
  | register => .register
  | signed | unsigned => .immediate
  | memory => .memory
  | target => .integer

/-- An operand is of a kind that its slot can take. -/
def Slot.takes : Slot → Operand → Bool
  | register, .register _ | register, .symbol _ => true
  | signed, .immediate _ | unsigned, .immediate _ => true
  | memory, .memory _ _ => true
  | target, .symbol _ | target, .immediate _ => true
  | _, _ => false

section

variable (table : SymbolTable) (index : Nat)

/-- An operand fits a slot of the statement with the given index, and says a value there. -/
inductive Fits : Slot → Operand → SlotValue → Prop where
  | register
      {operand : Operand}
      {reg : Reg}
      (names : Names reg operand) :
      Fits .register operand (.register reg)
  | signed
      {literal : Text}
      {value : Int}
      (within : DenotesWithin .signedHalf literal value) :
      Fits .signed (.immediate literal) (.integer value)
  | unsigned
      {literal : Text}
      {value : Int}
      (within : DenotesWithin .unsignedHalf literal value) :
      Fits .unsigned (.immediate literal) (.integer value)
  | memory
      {offset? : Option Text}
      {base : Text}
      {offset : Int}
      {reg : Reg}
      (isOffset : IsOffset offset? offset)
      (spelled : reg.IsSpelled base) :
      Fits .memory (.memory offset? base) (.memory offset reg)
  | label
      {name : Text}
      {symbol : Symbol}
      {distance : Int}
      (bound : table.get? name = some symbol)
      (measured : distance = symbol.index - (index + 1))
      (least : -0x8000 ≤ distance)
      (greatest : distance ≤ 0x7FFF) :
      Fits .target (.symbol name) (.integer distance)
  | distance
      {literal : Text}
      {distance : Int}
      (within : DenotesWithin .signedHalf literal distance) :
      Fits .target (.immediate literal) (.integer distance)

/-- An operand does not fit a slot of the statement with the given index, for a reason. -/
inductive Offends : Slot → Operand → AssemblyFault → Prop where
  | kind
      {slot : Slot}
      {operand : Operand}
      (refused : slot.takes operand = false) :
      Offends slot operand (.malformed (.wrongKind slot.kind operand.text))
  | register
      {operand : Operand}
      {name : Text}
      (isName : operand = .register name ∨ operand = .symbol name)
      (unknown : ∀ reg : Reg, ¬ reg.IsSpelled name) :
      Offends .register operand (.unknownRegister name)
  | signed
      {literal : Text}
      {fault : AssemblyFault}
      (faulty : LiteralFault .signedHalf literal fault) :
      Offends .signed (.immediate literal) fault
  | unsigned
      {literal : Text}
      {fault : AssemblyFault}
      (faulty : LiteralFault .unsignedHalf literal fault) :
      Offends .unsigned (.immediate literal) fault
  | offset
      {literal base : Text}
      {fault : AssemblyFault}
      (faulty : LiteralFault .signedHalf literal fault) :
      Offends .memory (.memory (some literal) base) fault
  | base
      {offset? : Option Text}
      {offset : Int}
      {base : Text}
      (isOffset : IsOffset offset? offset)
      (unknown : ∀ reg : Reg, ¬ reg.IsSpelled base) :
      Offends .memory (.memory offset? base) (.unknownRegister base)
  | undefined
      {name : Text}
      (unbound : table.get? name = none) :
      Offends .target (.symbol name) (.undefinedLabel name)
  | far
      {name : Text}
      {symbol : Symbol}
      {distance : Int}
      (bound : table.get? name = some symbol)
      (measured : distance = symbol.index - (index + 1))
      (outside : distance < -0x8000 ∨ 0x7FFF < distance) :
      Offends .target (.symbol name) (.immediateOutOfBounds distance .signedHalf)
  | distance
      {literal : Text}
      {fault : AssemblyFault}
      (faulty : LiteralFault .signedHalf literal fault) :
      Offends .target (.immediate literal) fault

/-- Find out what an operand says in a slot of the statement with the given index. -/
def resolve : Slot → Operand → Except AssemblyFault SlotValue
  | .register, operand => (orFault operand.asRegister).map .register
  | .signed, operand => (orFault operand.asSignedHalf).map fun half => .integer half.toInt
  | .unsigned, operand => (orFault operand.asUnsignedHalf).map fun half => .integer half.toNat
  | .memory, operand => (orFault operand.asMemory).map fun place =>
      .memory place.offset.toInt place.base
  | .target, operand => (branchField table index operand).map fun field => .integer field.toInt

end

/-! ## Literals -/

/-- What becomes of a literal depends on the number it denotes alone. -/
theorem resolveLiteral_eq
    {literal : Text}
    {value : Int}
    (denotes : Literal.Denotes literal value)
    (bounds : Bounds) :
    resolveLiteral bounds literal =
      if value.natAbs ≤ Literal.maximum then
        if bounds.contains value then .ok value else .error (.outOfBounds value bounds)
      else
        .error (.literalTooLarge literal) := by
  unfold resolveLiteral
  rw [Literal.value?_of_denotes denotes]
  by_cases small : value.natAbs ≤ Literal.maximum
  · simp only [small, ↓reduceIte]
  · simp only [small, ↓reduceIte]

/-- The bounds leave out integers of more than 64 bits. -/
def IsNarrow (bounds : Bounds) : Prop :=
  -Literal.maximum ≤ bounds.least ∧ bounds.greatest ≤ Literal.maximum

theorem isNarrow_signedHalf : IsNarrow .signedHalf :=
  ⟨by decide, by decide⟩

theorem isNarrow_unsignedHalf : IsNarrow .unsignedHalf :=
  ⟨by decide, by decide⟩

/-- A narrow bound leaves integers that fit 64 bits. -/
theorem DenotesWithin.small
    {bounds : Bounds}
    (narrow : IsNarrow bounds)
    {literal : Text}
    {value : Int}
    (within : DenotesWithin bounds literal value) :
    value.natAbs ≤ Literal.maximum := by
  have low := Int.le_trans narrow.1 within.least
  have high := Int.le_trans within.greatest narrow.2
  omega

/-- A literal whose value is within narrow bounds resolves to that value. -/
theorem resolveLiteral_of_denotesWithin
    {bounds : Bounds}
    (narrow : IsNarrow bounds)
    {literal : Text}
    {value : Int}
    (within : DenotesWithin bounds literal value) :
    resolveLiteral bounds literal = .ok value := by
  have inside := Bounds.contains_iff.mpr ⟨within.least, within.greatest⟩
  rw [resolveLiteral_eq within.denotes, if_pos (within.small narrow), if_pos inside]

/-- Without bounds of a field, an integer is only refused if it has more than 64 bits. -/
theorem asInteger_of_denotes
    {literal : Text}
    {value : Int}
    (denotes : Literal.Denotes literal value) :
    (immediate literal).asInteger =
      if value.natAbs ≤ Literal.maximum then .ok value else .error (.literalTooLarge literal) := by
  rw [asInteger, resolveLiteral_eq denotes]
  by_cases small : value.natAbs ≤ Literal.maximum
  · have inside : Bounds.signed64.contains value = true := by
      simp only [Literal.maximum] at small
      simp only [Bounds.contains_iff, Bounds.signed64]
      omega
    rw [if_pos small, if_pos inside, if_pos small]
  · rw [if_neg small, if_neg small]

/-- A literal that is out of bounds or too large is refused for just that. -/
theorem resolveLiteral_of_fault
    {bounds : Bounds}
    {literal : Text}
    {fault : AssemblyFault}
    (faulty : LiteralFault bounds literal fault) :
    ∃ error, resolveLiteral bounds literal = .error error ∧ error.fault = fault := by
  cases faulty with
  | tooLarge denotes large =>
      refine ⟨.literalTooLarge literal, ?_, rfl⟩
      rw [resolveLiteral_eq denotes, if_neg (by omega)]
  | @outside value denotes small outside =>
      have notInside : ¬ bounds.contains value = true := by
        rw [Bounds.contains_iff]
        omega
      refine ⟨.outOfBounds value bounds, ?_, rfl⟩
      rw [resolveLiteral_eq denotes, if_pos small, if_neg notInside]

/-- An integer of the language is within the bounds or at fault. -/
theorem denotesWithin_or_fault
    (bounds : Bounds)
    {literal : Text}
    (isImmediate : Immediate literal) :
    (∃ value, DenotesWithin bounds literal value) ∨ ∃ fault, LiteralFault bounds literal fault := by
  obtain ⟨value, denotes⟩ := Literal.exists_denotes isImmediate
  by_cases small : value.natAbs ≤ Literal.maximum
  · by_cases outside : value < bounds.least ∨ bounds.greatest < value
    · exact .inr ⟨_, .outside denotes small outside⟩
    · exact .inl ⟨value, denotes, by omega, by omega⟩
  · exact .inr ⟨_, .tooLarge denotes (by omega)⟩

/-! ## Slots -/

variable {table : SymbolTable} {index : Nat}

/-- An offset resolves to its value, and a missing one to zero. -/
theorem resolveOffset_of_isOffset
    {offset? : Option Text}
    {value : Int}
    (isOffset : IsOffset offset? value) :
    ∃ offset, resolveOffset offset? = .ok offset ∧ offset.toInt = value := by
  cases isOffset with
  | omitted => exact ⟨0, rfl, rfl⟩
  | given within =>
      refine ⟨BitVec.ofInt 16 value, ?_, Half.toInt_ofInt within.least within.greatest⟩
      rw [resolveOffset, resolveLiteral_of_denotesWithin isNarrow_signedHalf within]
      rfl

/-- A token that spells no register is refused as unknown. -/
theorem resolveRegister_of_unknown
    {name : Text}
    (isToken : Register name ∨ Identifier name)
    (unknown : ∀ reg : Reg, ¬ reg.IsSpelled name) :
    resolveRegister name = .error (.unknownRegister name) := by
  unfold resolveRegister
  cases found : Reg.lookup? name with
  | none => rfl
  | some reg => exact absurd (Reg.isSpelled_of_lookup? isToken found) (unknown reg)

/-- A branch by a literal goes the distance that is written. -/
theorem branchDistance_immediate (literal : Text) :
    branchDistance table index (.immediate literal) = orFault (immediate literal).asInteger :=
  rfl

/-- The target of a branch as a field, once its distance is known. -/
theorem branchField_of_distance
    {target : Operand}
    {distance : Int}
    (measured : branchDistance table index target = .ok distance) :
    branchField table index target =
      if Bounds.signedHalf.contains distance then
        .ok (BitVec.ofInt 16 distance)
      else
        .error (.immediateOutOfBounds distance .signedHalf) := by
  rw [branchField, measured]
  rfl

/-- A target within reach of its branch is resolved to its distance. -/
theorem resolve_target_of_distance
    {target : Operand}
    {distance : Int}
    (measured : branchDistance table index target = .ok distance)
    (least : Bounds.signedHalf.least ≤ distance)
    (greatest : distance ≤ Bounds.signedHalf.greatest) :
    resolve table index .target target = .ok (.integer distance) := by
  have inside := Bounds.contains_iff.mpr ⟨least, greatest⟩
  have resolved :
      resolve table index .target target = .ok (.integer (BitVec.ofInt 16 distance).toInt) := by
    rw [resolve, branchField_of_distance measured, if_pos inside]
    rfl
  rw [resolved, Half.toInt_ofInt least greatest]

/-- An operand that fits its slot is resolved to what it says. -/
theorem resolve_of_fits
    {slot : Slot}
    {operand : Operand}
    {value : SlotValue}
    (fits : Fits table index slot operand value) :
    resolve table index slot operand = .ok value := by
  cases fits with
  | register names =>
      rw [resolve, asRegister_of_names names]
      rfl
  | @signed literal value within =>
      have read := resolveLiteral_of_denotesWithin isNarrow_signedHalf within
      have resolved :
          resolve table index .signed (.immediate literal) =
            .ok (.integer (BitVec.ofInt 16 value).toInt) := by
        rw [resolve, asSignedHalf, asImmediate, read]
        rfl
      rw [resolved, Half.toInt_ofInt within.least within.greatest]
  | @unsigned literal value within =>
      have read := resolveLiteral_of_denotesWithin isNarrow_unsignedHalf within
      have resolved :
          resolve table index .unsigned (.immediate literal) =
            .ok (.integer (BitVec.ofInt 16 value).toNat) := by
        rw [resolve, asUnsignedHalf, asImmediate, read]
        rfl
      rw [resolved, Half.toNat_ofInt within.least within.greatest]
  | memory isOffset spelled =>
      obtain ⟨offset, offsetRead, rfl⟩ := resolveOffset_of_isOffset isOffset
      rw [resolve, asMemory, offsetRead, resolveRegister_of_isSpelled spelled]
      rfl
  | @label name symbol distance bound measured least greatest =>
      apply resolve_target_of_distance _ least greatest
      simp only [branchDistance, bound, measured]
  | distance within =>
      apply resolve_target_of_distance _ within.least within.greatest
      rw [branchDistance_immediate, asInteger_of_denotes within.denotes,
        if_pos (within.small isNarrow_signedHalf)]
      rfl

/-- A target out of reach of its branch is refused with its distance. -/
theorem resolve_target_of_far
    {target : Operand}
    {distance : Int}
    (measured : branchDistance table index target = .ok distance)
    (outside : distance < Bounds.signedHalf.least ∨ Bounds.signedHalf.greatest < distance) :
    resolve table index .target target = .error (.immediateOutOfBounds distance .signedHalf) := by
  have notInside : ¬ Bounds.signedHalf.contains distance = true := by
    rw [Bounds.contains_iff]
    omega
  rw [resolve, branchField_of_distance measured, if_neg notInside]
  rfl

/-- An operand of another kind than its slot can take is refused for its kind. -/
theorem resolve_of_refused
    {slot : Slot}
    {operand : Operand}
    (refused : slot.takes operand = false) :
    resolve table index slot operand =
      .error (.malformed (.wrongKind slot.kind operand.text)) := by
  cases slot <;> cases operand <;> first | rfl | simp [Slot.takes] at refused

/-- An operand of the language that offends its slot is refused with the fault. -/
theorem resolve_of_offends
    {slot : Slot}
    {operand : Operand}
    {fault : AssemblyFault}
    (isOperand : IsOperand operand.text operand)
    (offends : Offends table index slot operand fault) :
    resolve table index slot operand = .error fault := by
  cases offends with
  | kind refused =>
      exact resolve_of_refused refused
  | @register _ name isName unknown =>
      have isToken : Register name ∨ Identifier name := by
        rcases isName with rfl | rfl
        · cases isOperand with
          | register isRegister => exact .inl isRegister
        · cases isOperand with
          | symbol isIdentifier => exact .inr isIdentifier
      have unresolved := resolveRegister_of_unknown isToken unknown
      rcases isName with rfl | rfl
      · rw [resolve, asRegister, unresolved]
        rfl
      · rw [resolve, asRegister, unresolved]
        rfl
  | signed faulty =>
      obtain ⟨error, failed, rfl⟩ := resolveLiteral_of_fault faulty
      rw [resolve, asSignedHalf, asImmediate, failed]
      rfl
  | unsigned faulty =>
      obtain ⟨error, failed, rfl⟩ := resolveLiteral_of_fault faulty
      rw [resolve, asUnsignedHalf, asImmediate, failed]
      rfl
  | offset faulty =>
      obtain ⟨error, failed, rfl⟩ := resolveLiteral_of_fault faulty
      rw [resolve, asMemory, resolveOffset, failed]
      rfl
  | base isOffset unknown =>
      obtain ⟨_, isBase⟩ := isOperand_memory_iff.mp isOperand
      obtain ⟨offset, offsetRead, rfl⟩ := resolveOffset_of_isOffset isOffset
      rw [resolve, asMemory, offsetRead, resolveRegister_of_unknown isBase unknown]
      rfl
  | undefined unbound =>
      simp [resolve, branchField, branchDistance, unbound, bind, Except.bind, Except.map]
  | far bound measured outside =>
      apply resolve_target_of_far _ outside
      simp only [branchDistance, bound, measured]
  | @distance literal _ faulty =>
      have measured :
          branchDistance table index (.immediate literal) =
            orFault (immediate literal).asInteger :=
        branchDistance_immediate literal
      cases faulty with
      | tooLarge denotes large =>
          rw [asInteger_of_denotes denotes, if_neg (by omega)] at measured
          rw [resolve, branchField, measured]
          rfl
      | outside denotes small outside =>
          rw [asInteger_of_denotes denotes, if_pos small] at measured
          exact resolve_target_of_far measured outside

/-- An operand that is a name names a register or is unknown. -/
theorem fits_register_or_offends
    {operand : Operand}
    (taken : Slot.register.takes operand = true)
    (isOperand : IsOperand operand.text operand) :
    (∃ reg, Names reg operand) ∨
      ∃ name,
        (operand = .register name ∨ operand = .symbol name) ∧
          ∀ reg : Reg, ¬ reg.IsSpelled name := by
  cases operand with
  | register name =>
      by_cases spelled : ∃ reg : Reg, reg.IsSpelled name
      · obtain ⟨reg, spelling⟩ := spelled
        cases isOperand with
        | register isRegister => exact .inl ⟨reg, .register (spelling.isMarked isRegister)⟩
      · exact .inr ⟨name, .inl rfl, not_exists.mp spelled⟩
  | symbol name =>
      by_cases spelled : ∃ reg : Reg, reg.IsSpelled name
      · obtain ⟨reg, spelling⟩ := spelled
        cases isOperand with
        | symbol isIdentifier => exact .inl ⟨reg, .symbol (spelling.isNamed isIdentifier)⟩
      · exact .inr ⟨name, .inr rfl, not_exists.mp spelled⟩
  | immediate literal => simp [Slot.takes] at taken
  | memory offset? base => simp [Slot.takes] at taken

/-- The literal of an operand has the form of an immediate. -/
theorem immediate_of_isOperand
    {literal : Text}
    (isOperand : IsOperand (immediate literal).text (immediate literal)) :
    Immediate literal := by
  cases isOperand with
  | immediate isImmediate => exact isImmediate

/-- A memory operand fits its slot with some value, or offends it with some fault. -/
theorem fits_memory_or_offends
    {offset? : Option Text}
    {base : Text}
    (isOperand : IsOperand (memory offset? base).text (memory offset? base)) :
    (∃ value, Fits table index .memory (.memory offset? base) value) ∨
      ∃ fault, Offends table index .memory (.memory offset? base) fault := by
  have atBase {offset : Int} (isOffset : IsOffset offset? offset) :
      (∃ value, Fits table index .memory (.memory offset? base) value) ∨
        ∃ fault, Offends table index .memory (.memory offset? base) fault := by
    by_cases spelled : ∃ reg : Reg, reg.IsSpelled base
    · obtain ⟨reg, spelling⟩ := spelled
      exact .inl ⟨_, .memory isOffset spelling⟩
    · exact .inr ⟨_, .base isOffset (not_exists.mp spelled)⟩
  obtain ⟨isLiteral, _⟩ := isOperand_memory_iff.mp isOperand
  cases offset? with
  | none => exact atBase .omitted
  | some literal =>
      rcases denotesWithin_or_fault .signedHalf (isLiteral literal rfl) with
        ⟨value, within⟩ | ⟨fault, faulty⟩
      · exact atBase (.given within)
      · exact .inr ⟨fault, .offset faulty⟩

/-- A branch target fits its slot with some value, or offends it with some fault. -/
theorem fits_target_or_offends
    {operand : Operand}
    (taken : Slot.target.takes operand = true)
    (isOperand : IsOperand operand.text operand) :
    (∃ value, Fits table index .target operand value) ∨
      ∃ fault, Offends table index .target operand fault := by
  cases operand with
  | symbol name =>
      cases bound : table.get? name with
      | none => exact .inr ⟨_, .undefined bound⟩
      | some symbol =>
          by_cases outside :
              (symbol.index - (index + 1) : Int) < -0x8000 ∨
                0x7FFF < (symbol.index - (index + 1) : Int)
          · exact .inr ⟨_, .far bound rfl outside⟩
          · exact .inl ⟨_, .label bound rfl (by omega) (by omega)⟩
  | immediate literal =>
      exact (denotesWithin_or_fault .signedHalf (immediate_of_isOperand isOperand)).imp
        (fun ⟨value, within⟩ => ⟨_, .distance within⟩)
        (fun ⟨fault, faulty⟩ => ⟨fault, .distance faulty⟩)
  | register name => simp [Slot.takes] at taken
  | memory offset? base => simp [Slot.takes] at taken

/-- An operand of the language fits its slot or offends it. -/
theorem fits_or_offends
    (slot : Slot)
    {operand : Operand}
    (isOperand : IsOperand operand.text operand) :
    (∃ value, Fits table index slot operand value) ∨
      ∃ fault, Offends table index slot operand fault := by
  cases taken : slot.takes operand with
  | false => exact .inr ⟨_, .kind taken⟩
  | true =>
      cases slot with
      | register =>
          rcases fits_register_or_offends taken isOperand with
            ⟨reg, names⟩ | ⟨name, isName, unknown⟩
          · exact .inl ⟨_, .register names⟩
          · exact .inr ⟨_, .register isName unknown⟩
      | signed =>
          cases operand with
          | immediate literal =>
              exact (denotesWithin_or_fault .signedHalf (immediate_of_isOperand isOperand)).imp
                (fun ⟨value, within⟩ => ⟨_, .signed within⟩)
                (fun ⟨fault, faulty⟩ => ⟨fault, .signed faulty⟩)
          | _ => simp [Slot.takes] at taken
      | unsigned =>
          cases operand with
          | immediate literal =>
              exact (denotesWithin_or_fault .unsignedHalf (immediate_of_isOperand isOperand)).imp
                (fun ⟨value, within⟩ => ⟨_, .unsigned within⟩)
                (fun ⟨fault, faulty⟩ => ⟨fault, .unsigned faulty⟩)
          | _ => simp [Slot.takes] at taken
      | memory =>
          cases operand with
          | memory offset? base => exact fits_memory_or_offends isOperand
          | _ => simp [Slot.takes] at taken
      | target => exact fits_target_or_offends taken isOperand

/-- Resolving an operand of the language finds what it says exactly if it fits. -/
theorem resolve_eq_ok_iff
    {slot : Slot}
    {operand : Operand}
    {value : SlotValue}
    (isOperand : IsOperand operand.text operand) :
    resolve table index slot operand = .ok value ↔ Fits table index slot operand value := by
  constructor
  · intro resolved
    rcases fits_or_offends slot isOperand with ⟨other, fits⟩ | ⟨fault, offends⟩
    · rw [resolve_of_fits fits] at resolved
      obtain rfl := Except.ok.inj resolved
      exact fits
    · rw [resolve_of_offends isOperand offends] at resolved
      simp at resolved
  · exact resolve_of_fits

/-- Resolving an operand of the language fails exactly if it offends, and with its fault. -/
theorem resolve_eq_error_iff
    {slot : Slot}
    {operand : Operand}
    {fault : AssemblyFault}
    (isOperand : IsOperand operand.text operand) :
    resolve table index slot operand = .error fault ↔ Offends table index slot operand fault := by
  constructor
  · intro failed
    rcases fits_or_offends slot isOperand with ⟨value, fits⟩ | ⟨other, offends⟩
    · rw [resolve_of_fits fits] at failed
      simp at failed
    · rw [resolve_of_offends isOperand offends] at failed
      obtain rfl := Except.error.inj failed
      exact offends
  · exact resolve_of_offends isOperand

end TinyMips.Assembly
