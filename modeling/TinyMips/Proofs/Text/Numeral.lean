import Mathlib.Data.List.Induction
import TinyMips.Text.Numeral

namespace TinyMips.Numeral

/-!
# Numerals that are printed and read back

The digits that a number is printed with are digits of its base, and their value
is the number. Zeros in front do not change it. A run of digits has the value that it
spells, digit by digit.
-/

/-- A digit is worth the number that it was written for. -/
theorem digitValue_digitChar
    {digit : Nat}
    (small : digit < 16) :
    digitValue digit.digitChar = digit := by
  have every : ∀ digit < 16, digitValue (Nat.digitChar digit) = digit := by
    decide
  exact every digit small

/-- Every character of a printed number is a digit of the base. -/
theorem digit_of_mem_toDigits
    {base n : Nat}
    (lower : 1 < base)
    {c : Char}
    (member : c ∈ Nat.toDigits base n) :
    ∃ digit < base, c = digit.digitChar := by
  induction n using Nat.strongRecOn with
  | ind n inductionHypothesis =>
      rcases Nat.lt_or_ge n base with small | large
      · rw [Nat.toDigits_of_lt_base small] at member
        exact ⟨n, small, List.mem_singleton.mp member⟩
      · rw [Nat.toDigits_of_base_le lower large, List.mem_append] at member
        rcases member with earlier | last
        · have less : n / base < n :=
            Nat.div_lt_self (by omega) lower
          exact inductionHypothesis (n / base) less earlier
        · exact ⟨n % base, Nat.mod_lt n (by omega), List.mem_singleton.mp last⟩

/--
The last digit of a numeral counts once, and what is before it once more for each of the
base.
-/
theorem value_append
    (base : Nat)
    (digits : Text)
    (c : Char) :
    value base (digits ++ [c]) = value base digits * base + digitValue c := by
  simp [value]

/-- The digits of a number have that number as their value. -/
theorem value_toDigits
    {base : Nat}
    (lower : 1 < base)
    (upper : base ≤ 16)
    (n : Nat) :
    value base (Nat.toDigits base n) = n := by
  -- The last digit comes off first, so the induction is on the quotient by the base.
  induction n using Nat.strongRecOn with
  | ind n inductionHypothesis =>
      have remainder : n % base < base :=
        Nat.mod_lt n (by omega)
      rcases Nat.lt_or_ge n base with small | large
      · rw [Nat.toDigits_of_lt_base small]
        simp [value, digitValue_digitChar (by omega : n < 16)]
      · have less : n / base < n :=
          Nat.div_lt_self (by omega) lower
        rw [Nat.toDigits_of_base_le lower large, value_append,
          inductionHypothesis (n / base) less, digitValue_digitChar (by omega)]
        exact Nat.div_add_mod' n base

/-- Zeros in front do not change the value. -/
theorem value_zeros_append
    (base count : Nat)
    (digits : Text) :
    value base (List.replicate count '0' ++ digits) = value base digits := by
  induction count with
  | zero =>
      rfl
  | succ count inductionHypothesis =>
      have zero : digitValue '0' = 0 := by
        decide
      simpa [value, List.replicate_succ, zero] using inductionHypothesis

theorem value_decimal
    (n : Nat) :
    value 10 (decimal n) = n :=
  value_toDigits (by decide) (by decide) n

/-- The value of the hexadecimal digits of a number is the number, for any width. -/
theorem value_hex
    (width n : Nat) :
    value 16 (hex width n) = n := by
  rw [hex, List.leftpad, value_zeros_append]
  exact value_toDigits (by decide) (by decide) n

/-- Decimal digits are below ten. -/
theorem mem_decimal
    {n : Nat}
    {c : Char}
    (member : c ∈ decimal n) :
    ∃ digit < 10, c = digit.digitChar :=
  digit_of_mem_toDigits (by decide) member

theorem mem_hex
    {width n : Nat}
    {c : Char}
    (member : c ∈ hex width n) :
    ∃ digit < 16, c = digit.digitChar := by
  rw [hex, List.leftpad, List.mem_append] at member
  rcases member with zero | written
  · exact ⟨0, by decide, (List.mem_replicate.mp zero).2⟩
  · exact digit_of_mem_toDigits (by decide) written

/-- What holds of the ten digits holds of every character of a printed number. -/
theorem forall_mem_decimal
    {property : Char → Prop}
    (every : ∀ digit < 10, property (Nat.digitChar digit))
    {n : Nat} :
    ∀ c ∈ decimal n, property c := by
  intro c member
  obtain ⟨digit, small, rfl⟩ := mem_decimal member
  exact every digit small

/-- What holds of the sixteen digits holds of every character of a printed number. -/
theorem forall_mem_hex
    {property : Char → Prop}
    (every : ∀ digit < 16, property (Nat.digitChar digit))
    {width n : Nat} :
    ∀ c ∈ hex width n, property c := by
  intro c member
  obtain ⟨digit, small, rfl⟩ := mem_hex member
  exact every digit small

theorem decimal_ne_nil
    (n : Nat) :
    decimal n ≠ [] :=
  Nat.toDigits_ne_nil

theorem hex_ne_nil
    (width n : Nat) :
    hex width n ≠ [] := by
  simp [hex, List.leftpad]

/-- A decimal numeral begins with a digit. -/
theorem decimal_eq_cons
    (n : Nat) :
    ∃ digit < 10, ∃ rest, decimal n = digit.digitChar :: rest := by
  cases shape : decimal n with
  | nil =>
      exact absurd shape (decimal_ne_nil n)
  | cons c rest =>
      have member : c ∈ decimal n := by
        simp [shape]
      obtain ⟨digit, small, rfl⟩ := mem_decimal member
      exact ⟨digit, small, rest, rfl⟩

/-- What is written in decimal is a decimal numeral. -/
theorem isDecimal_decimal
    (n : Nat) :
    isDecimal (decimal n) = true := by
  simp only [isDecimal, Bool.and_eq_true, Bool.not_eq_true', List.isEmpty_eq_false_iff,
    List.all_eq_true]
  exact ⟨decimal_ne_nil n, forall_mem_decimal (by decide)⟩

/-- What is written in hexadecimal is a hexadecimal numeral. -/
theorem isHexadecimal_hex
    (width n : Nat) :
    isHexadecimal (hex width n) = true := by
  simp only [isHexadecimal, Bool.and_eq_true, Bool.not_eq_true', List.isEmpty_eq_false_iff,
    List.all_eq_true]
  exact ⟨hex_ne_nil width n, forall_mem_hex (by decide)⟩

/-- A text without an `x` is not marked as hexadecimal. -/
theorem hexBody?_of_noMark
    {text : Text}
    (noMark : ∀ c ∈ text, c ≠ 'x' ∧ c ≠ 'X') :
    hexBody? text = none := by
  unfold hexBody?
  split
  · exact absurd rfl (noMark 'x' (by simp)).1
  · exact absurd rfl (noMark 'X' (by simp)).2
  · rfl

theorem hexBody?_decimal
    (n : Nat) :
    hexBody? (decimal n) = none :=
  hexBody?_of_noMark (forall_mem_decimal (by decide))

theorem hexBody?_hex
    (width n : Nat) :
    hexBody? (hex width n) = none :=
  hexBody?_of_noMark (forall_mem_hex (by decide))

/-! ## What digits spell -/

/-- A character as a digit of a base; letters of either case count on from ten. -/
inductive IsDigit (base : Nat) : Char → Nat → Prop where
  | small
      {digit : Nat}
      (below : digit < base) :
      IsDigit base digit.digitChar digit
  | capital
      {digit : Nat}
      (below : digit < base) :
      IsDigit base digit.digitChar.toUpper digit

/-- The number that digits of a base spell, the most significant one first. -/
inductive Spells (base : Nat) : Text → Nat → Prop where
  | one
      {c : Char}
      {digit : Nat}
      (isDigit : IsDigit base c digit) :
      Spells base [c] digit
  | more
      {digits : Text}
      {n : Nat}
      {c : Char}
      {digit : Nat}
      (spells : Spells base digits n)
      (isDigit : IsDigit base c digit) :
      Spells base (digits ++ [c]) (n * base + digit)

/-- Where the class of digits has the right values, digits spell their value and nothing else. -/
theorem spells_iff
    {base : Nat}
    {inClass : Char → Bool}
    (isDigit_iff :
      ∀ c digit, IsDigit base c digit ↔ inClass c = true ∧ digitValue c = digit)
    {digits : Text}
    {n : Nat} :
    Spells base digits n ↔
      digits ≠ [] ∧ (∀ c ∈ digits, inClass c = true) ∧ value base digits = n := by
  constructor
  · intro spells
    induction spells with
    | one isDigit =>
        obtain ⟨inside, rfl⟩ := (isDigit_iff _ _).mp isDigit
        simp [inside, value]
    | more _ isDigit inductionHypothesis =>
        obtain ⟨inside, rfl⟩ := (isDigit_iff _ _).mp isDigit
        obtain ⟨_, insideBefore, rfl⟩ := inductionHypothesis
        refine ⟨by simp, ?_, value_append _ _ _⟩
        simpa [or_imp, forall_and, inside] using insideBefore
  · rintro ⟨nonempty, inside, rfl⟩
    induction digits using List.reverseRecOn with
    | nil =>
        exact absurd rfl nonempty
    | append_singleton digits c inductionHypothesis =>
        have last : IsDigit base c (digitValue c) :=
          (isDigit_iff _ _).mpr ⟨inside c (by simp), rfl⟩
        by_cases first : digits = []
        · subst first
          simpa [value] using Spells.one last
        · rw [value_append]
          exact .more (inductionHypothesis first fun c member => inside c (by simp [member])) last

/-- The hexadecimal digits are those that the reader takes, with the values that it gives them. -/
theorem isDigit_sixteen_iff
    (c : Char)
    (digit : Nat) :
    IsDigit 16 c digit ↔ Text.isHexDigit c = true ∧ digitValue c = digit := by
  constructor
  · have every :
        ∀ digit < 16,
          (Text.isHexDigit (Nat.digitChar digit) = true ∧
              digitValue (Nat.digitChar digit) = digit) ∧
            Text.isHexDigit (Nat.digitChar digit).toUpper = true ∧
              digitValue (Nat.digitChar digit).toUpper = digit := by
      decide
    rintro (below | below)
    · exact (every _ below).1
    · exact (every _ below).2
  · have every :
        ∀ code < 128,
          Text.isHexDigit (Char.ofNat code) = true →
            digitValue (Char.ofNat code) < 16 ∧
              (Nat.digitChar (digitValue (Char.ofNat code)) = Char.ofNat code ∨
                (Nat.digitChar (digitValue (Char.ofNat code))).toUpper = Char.ofNat code) := by
      decide
    rintro ⟨hexadecimal, rfl⟩
    have ascii : c.toNat < 128 := by
      simp only [Text.isHexDigit, Char.isDigit, Bool.or_eq_true, Bool.and_eq_true,
        decide_eq_true_eq, Char.le_def, UInt32.le_iff_toNat_le, ge_iff_le] at hexadecimal
      rcases hexadecimal with (decimal | lower) | upper
      · exact Nat.lt_of_le_of_lt decimal.2 (by decide)
      · exact Nat.lt_of_le_of_lt lower.2 (by decide)
      · exact Nat.lt_of_le_of_lt upper.2 (by decide)
    have found := every c.toNat ascii
    rw [Char.ofNat_toNat] at found
    obtain ⟨below, written | written⟩ := found hexadecimal
    · have small : IsDigit 16 _ (digitValue c) := .small below
      rwa [written] at small
    · have capital : IsDigit 16 _ (digitValue c) := .capital below
      rwa [written] at capital

/-- A hexadecimal numeral has exactly the value that it spells. -/
theorem spells_sixteen_iff
    {digits : Text}
    {n : Nat} :
    Spells 16 digits n ↔ isHexadecimal digits = true ∧ value 16 digits = n := by
  rw [spells_iff isDigit_sixteen_iff]
  simp [isHexadecimal, and_assoc]

/-- The digits of a base are the digits of a larger base that count less than the base. -/
theorem isDigit_iff_of_le
    {base larger : Nat}
    (atMost : base ≤ larger)
    {c : Char}
    {digit : Nat} :
    IsDigit base c digit ↔ IsDigit larger c digit ∧ digit < base := by
  constructor
  · rintro (below | below)
    · exact ⟨.small (Nat.lt_of_lt_of_le below atMost), below⟩
    · exact ⟨.capital (Nat.lt_of_lt_of_le below atMost), below⟩
  · rintro ⟨_ | _, below⟩
    · exact .small below
    · exact .capital below

/-- The hexadecimal digits that count less than ten are the decimal ones. -/
theorem isDigit_iff_digitValue_lt
    {c : Char} :
    c.isDigit = true ↔ Text.isHexDigit c = true ∧ digitValue c < 10 := by
  cases decimal : c.isDigit with
  | true =>
      have below : c.toNat ≤ 57 := (Char.isDigit_iff_toNat.mp decimal).2
      have counts : digitValue c = c.toNat - 48 := by
        simp [digitValue, decimal]
      have hexadecimal : Text.isHexDigit c = true := by
        simp [Text.isHexDigit, decimal]
      simp only [hexadecimal, counts, true_and, true_iff]
      omega
  | false =>
      simp only [Bool.false_eq_true, false_iff, not_and, Nat.not_lt]
      intro hexadecimal
      simp only [Text.isHexDigit, decimal, Bool.false_or, Bool.or_eq_true] at hexadecimal
      by_cases lower : ('a' ≤ c && c ≤ 'f') = true
      · simp [digitValue, decimal, lower]
      · have upper := hexadecimal.resolve_left lower
        simp [digitValue, decimal, lower, upper]

/-- The decimal digits are those that the reader takes, with the values that it gives them. -/
theorem isDigit_ten_iff
    (c : Char)
    (digit : Nat) :
    IsDigit 10 c digit ↔ c.isDigit = true ∧ digitValue c = digit := by
  rw [isDigit_iff_of_le (by decide : 10 ≤ 16), isDigit_sixteen_iff, isDigit_iff_digitValue_lt]
  constructor
  · rintro ⟨⟨hexadecimal, rfl⟩, below⟩
    exact ⟨⟨hexadecimal, below⟩, rfl⟩
  · rintro ⟨⟨hexadecimal, below⟩, rfl⟩
    exact ⟨⟨hexadecimal, rfl⟩, below⟩

/-- A decimal numeral has exactly the value that it spells. -/
theorem spells_ten_iff
    {digits : Text}
    {n : Nat} :
    Spells 10 digits n ↔ isDecimal digits = true ∧ value 10 digits = n := by
  rw [spells_iff isDigit_ten_iff]
  simp [isDecimal, and_assoc]

end TinyMips.Numeral
