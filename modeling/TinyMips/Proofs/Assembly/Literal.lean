import TinyMips.Proofs.Assembly.Slot
import TinyMips.Proofs.Assertion.Form

namespace TinyMips

/-!
# Integers as they are written

An integer is written with a sign, which may be left out, and the digits of its magnitude in
base ten, or in base sixteen after a mark. It has its mathematical value as long as the
magnitude fits a signed 64-bit integer, however many digits there are. A slot of an operand
refuses it otherwise, or if the value lies outside the bounds of the slot, and a field that
takes it holds the value itself.
-/

namespace Numeral

/-- Digits spell a number in base ten, or in base sixteen after a mark. -/
inductive IsWritten : Text → Nat → Prop where
  | decimal
      {digits : Text}
      {n : Nat}
      (spells : Spells 10 digits n) :
      IsWritten digits n
  | hexadecimal
      {mark : Char}
      {digits : Text}
      {n : Nat}
      (marked : mark = 'x' ∨ mark = 'X')
      (spells : Spells 16 digits n) :
      IsWritten ('0' :: mark :: digits) n

/-- What digits spell is what they denote. -/
theorem isWritten_iff
    {text : Text}
    {n : Nat} :
    IsWritten text n ↔ Denotes text n := by
  constructor
  · intro written
    cases written with
    | decimal spells =>
        obtain ⟨decimal, rfl⟩ := spells_ten_iff.mp spells
        obtain ⟨nonempty, inBase⟩ := Token.isDecimal_iff.mp decimal
        exact .decimal nonempty inBase
    | hexadecimal marked spells =>
        obtain ⟨hexadecimal, rfl⟩ := spells_sixteen_iff.mp spells
        obtain ⟨nonempty, inBase⟩ := Token.isHexadecimal_iff.mp hexadecimal
        exact .hexadecimal marked nonempty inBase
  · intro denotes
    cases denotes with
    | decimal nonempty inBase =>
        have decimal := Token.isDecimal_iff.mpr ⟨nonempty, inBase⟩
        exact .decimal (spells_ten_iff.mpr ⟨decimal, rfl⟩)
    | hexadecimal marked nonempty inBase =>
        have hexadecimal := Token.isHexadecimal_iff.mpr ⟨nonempty, inBase⟩
        exact .hexadecimal marked (spells_sixteen_iff.mpr ⟨hexadecimal, rfl⟩)

/-- A number is denoted by one numeral in one way, since no mark is a decimal digit. -/
theorem Denotes.unique
    {text : Text}
    {n other : Nat}
    (denotes : Denotes text n)
    (denotesOther : Denotes text other) :
    n = other := by
  have noMark
      {mark : Char}
      {digits : Text}
      (marked : mark = 'x' ∨ mark = 'X')
      (inBase : Grammar.Only Char.isDigit ('0' :: mark :: digits)) :
      False := by
    have digit := inBase mark (by simp)
    rcases marked with rfl | rfl <;> exact absurd digit (by decide)
  cases denotes with
  | decimal _ inBase =>
      cases denotesOther with
      | decimal => rfl
      | hexadecimal marked => exact (noMark marked inBase).elim
  | hexadecimal marked =>
      cases denotesOther with
      | decimal _ inBase => exact (noMark marked inBase).elim
      | hexadecimal => rfl

end Numeral

namespace Literal

open Grammar

/-- A literal is an integer as it is written: a magnitude, and maybe a sign before it. -/
inductive IsWritten : Text → Int → Prop where
  | unsigned
      {text : Text}
      {n : Nat}
      (magnitude : Numeral.IsWritten text n) :
      IsWritten text n
  | positive
      {text : Text}
      {n : Nat}
      (magnitude : Numeral.IsWritten text n) :
      IsWritten ('+' :: text) n
  | negative
      {text : Text}
      {n : Nat}
      (magnitude : Numeral.IsWritten text n) :
      IsWritten ('-' :: text) (-n)

/-- Two ways to say what a literal is written for agree. -/
theorem isWritten_iff
    {text : Text}
    {value : Int} :
    IsWritten text value ↔ Denotes text value := by
  constructor
  · intro written
    cases written with
    | unsigned magnitude => exact .unsigned (Numeral.isWritten_iff.mp magnitude)
    | positive magnitude => exact .positive (Numeral.isWritten_iff.mp magnitude)
    | negative magnitude => exact .negative (Numeral.isWritten_iff.mp magnitude)
  · intro denotes
    cases denotes with
    | unsigned natural => exact .unsigned (Numeral.isWritten_iff.mpr natural)
    | positive natural => exact .positive (Numeral.isWritten_iff.mpr natural)
    | negative natural => exact .negative (Numeral.isWritten_iff.mpr natural)

/-- No numeral begins with a sign. -/
theorem not_denotes_cons
    {sign : Char}
    {digits : Text}
    {n : Nat}
    (isSign : sign.isDigit = false) :
    ¬ Numeral.Denotes (sign :: digits) n := by
  intro natural
  obtain ⟨c, rest, shape, digit⟩ := Token.natural_head natural.natural
  obtain ⟨rfl, _⟩ := List.cons.inj shape
  simp [isSign] at digit

/-- A literal denotes one integer, for its sign is no part of its magnitude. -/
theorem Denotes.unique
    {text : Text}
    {value other : Int}
    (denotes : Denotes text value)
    (denotesOther : Denotes text other) :
    value = other := by
  cases denotes with
  | unsigned natural =>
      cases denotesOther with
      | unsigned naturalOther => rw [natural.unique naturalOther]
      | positive => exact absurd natural (not_denotes_cons (by decide))
      | negative => exact absurd natural (not_denotes_cons (by decide))
  | positive natural =>
      cases denotesOther with
      | unsigned naturalOther => exact absurd naturalOther (not_denotes_cons (by decide))
      | positive naturalOther => rw [natural.unique naturalOther]
  | negative natural =>
      cases denotesOther with
      | unsigned naturalOther => exact absurd naturalOther (not_denotes_cons (by decide))
      | negative naturalOther => rw [natural.unique naturalOther]

/-! ## What the grammar reads as an integer -/

/-- Exactly the immediates are written for an integer. -/
theorem exists_isWritten_iff
    {text : Text} :
    (∃ value, IsWritten text value) ↔ Immediate text := by
  simp only [isWritten_iff]
  constructor
  · rintro ⟨value, denotes⟩
    exact immediate_of_denotes denotes
  · exact exists_denotes

/-- The integers of statements are the literals. -/
theorem exists_immediate?_iff
    {text : Text} :
    (∃ whole rest, Token.immediate? whole = some ⟨text, rest⟩) ↔
      ∃ value, IsWritten text value := by
  rw [exists_isWritten_iff]
  constructor
  · rintro ⟨whole, rest, found⟩
    exact Token.immediate_of_immediate? found
  · intro isImmediate
    exact ⟨text ++ [], [], Token.immediate?_of_immediate isImmediate (Token.stops_nil _)⟩

/-- The integers of assertions are the immediates without a plus sign. -/
theorem integer_iff
    {text : Text} :
    Integer text ↔ Immediate text ∧ text.head? ≠ some '+' := by
  constructor
  · intro isInteger
    refine ⟨isInteger.immediate, ?_⟩
    cases isInteger with
    | natural natural =>
        obtain ⟨c, rest, rfl, digit⟩ := Token.natural_head natural
        simpa using Text.ne_of_class digit (by decide)
    | negative natural => simp
  · rintro ⟨isImmediate, noPlus⟩
    cases isImmediate with
    | unsigned natural => exact .natural natural
    | signed isSign natural =>
        rcases isSign with rfl | rfl
        · exact .negative natural
        · simp at noPlus

/-- The integers of assertions are the literals without a plus sign. -/
theorem exists_integer?_iff
    {text : Text} :
    (∃ whole rest, AssertionParts.integer? whole = some ⟨text, rest⟩) ↔
      (∃ value, IsWritten text value) ∧ text.head? ≠ some '+' := by
  rw [exists_isWritten_iff, ← integer_iff]
  constructor
  · rintro ⟨whole, rest, found⟩
    exact (AssertionParts.integer_of_integer? found).1
  · intro isInteger
    exact ⟨text ++ [], [], AssertionParts.integer?_of_integer isInteger (Token.stops_nil _)⟩

/-! ## The value -/

/-- The limit of literals is one of sixty-three bits. -/
theorem natAbs_le_maximum_iff
    {value : Int} :
    (value.natAbs : Int) ≤ maximum ↔ value.natAbs ≤ 0x7FFFFFFFFFFFFFFF := by
  simp only [maximum]
  omega

/-- What is read after a minus sign can be negated within 64 bits. -/
theorem neg_inRange_of_magnitude?
    {body : Text}
    {value magnitude : Int}
    (denotes : Denotes ('-' :: body) value)
    (found : magnitude? body = some magnitude) :
    minimum ≤ -magnitude ∧ -magnitude ≤ maximum := by
  cases denotes with
  | unsigned natural => exact absurd natural (not_denotes_cons (by decide))
  | @negative _ n natural =>
      rw [magnitude?_of_denotes natural, inRange?, Option.ite_none_right_eq_some] at found
      obtain ⟨inside, same⟩ := found
      obtain rfl := Option.some.inj same
      have bound := of_decide_eq_true (Bool.and_eq_true_iff.mp inside).2
      simp only [minimum, maximum] at bound ⊢
      omega

end Literal

namespace Operand

/--
What a slot with bounds makes of a literal. The literal is too large exactly if the magnitude
of its value does not fit a signed 64-bit integer, and out of bounds exactly if it does but the
value lies outside the bounds. Within them the slot takes what keeps the value, and nothing
else.
-/
structure IsJudged
    {α : Type}
    (bounds : Bounds)
    (literal : Text)
    (value : Int)
    (keeps : α → Prop)
    (outcome : Except OperandError α) : Prop where
  tooLarge :
    ∀ other,
      outcome = .error (.literalTooLarge other) ↔
        0x7FFFFFFFFFFFFFFF < value.natAbs ∧ other = literal
  outside :
    ∀ found limits,
      outcome = .error (.outOfBounds found limits) ↔
        value.natAbs ≤ 0x7FFFFFFFFFFFFFFF ∧
          (value < bounds.least ∨ bounds.greatest < value) ∧ found = value ∧ limits = bounds
  taken :
    ∀ result,
      outcome = .ok result ↔
        value.natAbs ≤ 0x7FFFFFFFFFFFFFFF ∧
          bounds.least ≤ value ∧ value ≤ bounds.greatest ∧ keeps result

variable {α : Type} {bounds : Bounds} {literal : Text} {value : Int} {keeps : α → Prop}

/-- A literal is judged by its value, whatever is made of a value that is taken. -/
theorem isJudged_bind
    {next : Int → Except OperandError α}
    (denotes : Literal.Denotes literal value)
    (failures : ∀ error, next value = .error error → ∃ name, error = .unknownRegister name)
    (kept :
      bounds.least ≤ value →
        value ≤ bounds.greatest → ∀ result, next value = .ok result ↔ keeps result) :
    IsJudged bounds literal value keeps (resolveLiteral bounds literal >>= next) := by
  simp only [Assembly.resolveLiteral_eq denotes, Literal.natAbs_le_maximum_iff]
  by_cases small : value.natAbs ≤ 0x7FFFFFFFFFFFFFFF
  · have notLarge : ¬ 0x7FFFFFFFFFFFFFFF < value.natAbs :=
      Nat.not_lt.mpr small
    by_cases inside : bounds.contains value = true
    · -- The value is taken, and what fails afterwards is no fault of the literal.
      obtain ⟨least, greatest⟩ := Bounds.contains_iff.mp inside
      rw [if_pos small, if_pos inside, ok_bind]
      refine ⟨fun other => ?_, fun found limits => ?_, fun result => ?_⟩
      · refine ⟨fun failed => ?_, fun large => absurd large.1 notLarge⟩
        simpa using failures _ failed
      · refine ⟨fun failed => ?_, fun beyond => ?_⟩
        · simpa using failures _ failed
        · obtain ⟨_, outside, _⟩ := beyond
          omega
      · simp [small, least, greatest, kept least greatest]
    · have outside : value < bounds.least ∨ bounds.greatest < value := by
        rw [Bounds.contains_iff] at inside
        omega
      have refused :
          (Except.error (.outOfBounds value bounds) >>= next : Except OperandError α) =
            .error (.outOfBounds value bounds) :=
        rfl
      rw [if_pos small, if_neg inside, refused]
      refine ⟨fun other => ?_, fun found limits => ?_, fun result => ?_⟩
      · simp [notLarge]
      · simp [small, outside, eq_comm]
      · simp only [reduceCtorEq, false_iff]
        rintro ⟨_, least, greatest, _⟩
        omega
  · have refused :
        (Except.error (.literalTooLarge literal) >>= next : Except OperandError α) =
          .error (.literalTooLarge literal) :=
      rfl
    rw [if_neg small, refused]
    refine ⟨fun other => ?_, fun found limits => ?_, fun result => ?_⟩
    · simp [Nat.lt_of_not_le small, eq_comm]
    · simp [small]
    · simp [small]

/-- What is judged by the bounds is judged by them after a change without loss. -/
theorem isJudged_map
    {field : Int → α}
    (denotes : Literal.Denotes literal value)
    (kept :
      bounds.least ≤ value →
        value ≤ bounds.greatest → ∀ result, field value = result ↔ keeps result) :
    IsJudged bounds literal value keeps ((resolveLiteral bounds literal).map field) := by
  have asBind :
      (resolveLiteral bounds literal).map field =
        resolveLiteral bounds literal >>= fun found => .ok (field found) := by
    cases resolveLiteral bounds literal <;> rfl
  rw [asBind]
  refine isJudged_bind denotes (by simp) fun least greatest result => ?_
  rw [Except.ok.injEq]
  exact kept least greatest result

/-- A literal resolves to its value, or is refused for the bound that it passes. -/
theorem isJudged_resolveLiteral
    (denotes : Literal.Denotes literal value) :
    IsJudged bounds literal value (fun found => found = value)
      (resolveLiteral bounds literal) := by
  have unchanged : (resolveLiteral bounds literal).map id = resolveLiteral bounds literal := by
    cases resolveLiteral bounds literal <;> rfl
  rw [← unchanged]
  exact isJudged_map denotes fun _ _ result => eq_comm

/-! ## Fields -/

/-- Within its bounds, a signed half is the one of the same value. -/
theorem ofInt_eq_iff_toInt
    (least : Bounds.signedHalf.least ≤ value)
    (greatest : value ≤ Bounds.signedHalf.greatest)
    (half : Half) :
    BitVec.ofInt 16 value = half ↔ half.toInt = value := by
  constructor
  · rintro rfl
    exact Half.toInt_ofInt least greatest
  · rintro rfl
    exact BitVec.ofInt_toInt

/-- Within its bounds, an unsigned half is the one of the same value. -/
theorem ofInt_eq_iff_toNat
    (least : Bounds.unsignedHalf.least ≤ value)
    (greatest : value ≤ Bounds.unsignedHalf.greatest)
    (half : Half) :
    BitVec.ofInt 16 value = half ↔ (half.toNat : Int) = value := by
  constructor
  · rintro rfl
    exact Half.toNat_ofInt least greatest
  · rintro rfl
    rw [BitVec.ofInt_natCast, BitVec.ofNat_toNat, BitVec.setWidth_eq]

/-- The offset of a memory operand is judged as a signed half. -/
theorem isJudged_asMemory
    (denotes : Literal.Denotes literal value)
    (base : Text) :
    IsJudged .signedHalf literal value
      (fun place => place.offset.toInt = value ∧ resolveRegister base = .ok place.base)
      (memory (some literal) base).asMemory := by
  have offsetFirst :
      (memory (some literal) base).asMemory =
        resolveLiteral .signedHalf literal >>= fun offset =>
          (resolveRegister base).map fun reg => ⟨BitVec.ofInt 16 offset, reg⟩ := by
    rw [asMemory, resolveOffset]
    cases resolveLiteral .signedHalf literal <;> cases resolveRegister base <;> rfl
  rw [offsetFirst]
  refine isJudged_bind denotes ?_ ?_
  · intro error failed
    unfold resolveRegister at failed
    split at failed
    · simp [Except.map] at failed
    · exact ⟨base, (Except.error.inj failed).symm⟩
  · rintro least greatest ⟨offset, reg⟩
    have field := ofInt_eq_iff_toInt least greatest offset
    cases resolveRegister base <;> simp [Except.map, field]

/-- A branch takes a distance that is given as a number for what a signed field takes it. -/
theorem branchField_immediate
    (denotes : Literal.Denotes literal value)
    (table : SymbolTable)
    (index : Nat) :
    Assembly.branchField table index (immediate literal) =
      Assembly.orFault (immediate literal).asSignedHalf := by
  have distance :
      Assembly.branchDistance table index (immediate literal) =
        Assembly.orFault (immediate literal).asInteger :=
    Assembly.branchDistance_immediate literal
  rw [Assembly.asInteger_of_denotes denotes] at distance
  rw [asSignedHalf, asImmediate, Assembly.resolveLiteral_eq denotes]
  by_cases small : (value.natAbs : Int) ≤ Literal.maximum
  · rw [if_pos small] at distance
    rw [Assembly.branchField_of_distance distance, if_pos small]
    split <;> rfl
  · rw [if_neg small] at distance
    rw [Assembly.branchField, distance, if_neg small]
    rfl

/--
Every slot that takes an integer judges a literal by its value: an immediate within any bounds,
an integer of 64 bits, the signed and the unsigned fields of 16 bits, and the offset from a
base register. The distance of a branch is judged as a signed field.
-/
structure JudgesAll (literal : Text) (value : Int) : Prop where
  immediate :
    ∀ bounds,
      IsJudged bounds literal value
        (fun found => found = value)
        ((Operand.immediate literal).asImmediate bounds)
  integer :
    IsJudged ⟨-0x8000000000000000, 0x7FFFFFFFFFFFFFFF⟩ literal value
      (fun found => found = value)
      (Operand.immediate literal).asInteger
  signed :
    IsJudged ⟨-0x8000, 0x7FFF⟩ literal value
      (fun half => half.toInt = value)
      (Operand.immediate literal).asSignedHalf
  unsigned :
    IsJudged ⟨0, 0xFFFF⟩ literal value
      (fun half => (half.toNat : Int) = value)
      (Operand.immediate literal).asUnsignedHalf
  offset :
    ∀ base,
      IsJudged ⟨-0x8000, 0x7FFF⟩ literal value
        (fun place => place.offset.toInt = value ∧ resolveRegister base = .ok place.base)
        (Operand.memory (some literal) base).asMemory
  distance :
    ∀ table index,
      Assembly.branchField table index (Operand.immediate literal) =
        Assembly.orFault (Operand.immediate literal).asSignedHalf

/-- Every slot judges a literal by the value that it denotes. -/
theorem judgesAll_of_denotes
    (denotes : Literal.Denotes literal value) :
    JudgesAll literal value where
  immediate _ := isJudged_resolveLiteral denotes
  integer := isJudged_resolveLiteral denotes
  signed := isJudged_map denotes ofInt_eq_iff_toInt
  unsigned := isJudged_map denotes ofInt_eq_iff_toNat
  offset := isJudged_asMemory denotes
  distance := branchField_immediate denotes

end Operand

/--
The grammar reads exactly the integers as they are written, in statements with a plus sign or
without one and in assertions without it. Each has one value, the number that its digits spell
under its sign, and it is found exactly if its magnitude fits a signed 64-bit integer; what
comes after a minus sign can be negated in one. The slots of operands refuse a literal as too
large or as out of bounds by this value, and the fields that take it hold it.
-/
theorem Literal.literals_have_their_value
    (text : Text) :
    ((∃ whole rest, Token.immediate? whole = some ⟨text, rest⟩) ↔
        ∃ value, IsWritten text value) ∧
      ((∃ whole rest, AssertionParts.integer? whole = some ⟨text, rest⟩) ↔
        (∃ value, IsWritten text value) ∧ text.head? ≠ some '+') ∧
      ∀ value,
        IsWritten text value →
          (∀ other, IsWritten text other → other = value) ∧
            (value? text =
              if value.natAbs ≤ 0x7FFFFFFFFFFFFFFF then some value else none) ∧
            (∀ body magnitude,
              text = '-' :: body →
                magnitude? body = some magnitude →
                  minimum ≤ -magnitude ∧ -magnitude ≤ maximum) ∧
            Operand.JudgesAll text value := by
  refine ⟨exists_immediate?_iff, exists_integer?_iff, fun value written => ?_⟩
  have denotes := isWritten_iff.mp written
  refine ⟨fun other writtenOther => ?_, ?_, ?_, Operand.judgesAll_of_denotes denotes⟩
  · exact (isWritten_iff.mp writtenOther).unique denotes
  · simp only [value?_of_denotes denotes, natAbs_le_maximum_iff]
  · rintro body magnitude rfl found
    exact neg_inRange_of_magnitude? denotes found

/-- Zeros before the digits do not count, and the first number beyond 63 bits is too large. -/
theorem Literal.least_half_fits_and_wide_number_does_not :
    IsWritten (Text.ofString "-0X00008000") (-0x8000) ∧
      value? (Text.ofString "-0X00008000") = some (-0x8000) ∧
      magnitude? (Text.ofString "0X00008000") = some 0x8000 ∧
      minimum ≤ -0x8000 ∧
      (Operand.immediate (Text.ofString "-0X00008000")).asSignedHalf = .ok 0x8000 ∧
      (Operand.immediate (Text.ofString "-0X00008000")).asUnsignedHalf =
        .error (.outOfBounds (-0x8000) .unsignedHalf) ∧
      IsWritten (Text.ofString "09223372036854775808") 0x8000000000000000 ∧
      value? (Text.ofString "09223372036854775808") = none ∧
      (Operand.immediate (Text.ofString "09223372036854775808")).asSignedHalf =
        .error (.literalTooLarge (Text.ofString "09223372036854775808")) := by
  have least : IsWritten (Text.ofString "-0X00008000") (-0x8000) := by
    have shape :
        Text.ofString "-0X00008000" = '-' :: '0' :: 'X' :: Text.ofString "00008000" := by
      decide
    have spells : Numeral.Spells 16 (Text.ofString "00008000") 0x8000 :=
      Numeral.spells_sixteen_iff.mpr (by decide +kernel)
    rw [shape]
    exact .negative (.hexadecimal (.inr rfl) spells)
  have wide : IsWritten (Text.ofString "09223372036854775808") 0x8000000000000000 :=
    .unsigned (.decimal (Numeral.spells_ten_iff.mpr (by decide +kernel)))
  have magnitude : magnitude? (Text.ofString "0X00008000") = some 0x8000 := by
    decide +kernel
  obtain ⟨_, leastValue, leastNegates, leastJudged⟩ :=
    (literals_have_their_value _).2.2 _ least
  obtain ⟨_, wideValue, _, wideJudged⟩ := (literals_have_their_value _).2.2 _ wide
  exact ⟨least, leastValue, magnitude, (leastNegates _ _ (by decide) magnitude).1,
    (leastJudged.signed.taken _).mpr (by decide),
    (leastJudged.unsigned.outside _ _).mpr (by decide), wide, wideValue,
    (wideJudged.signed.tooLarge _).mpr (by decide)⟩

end TinyMips
