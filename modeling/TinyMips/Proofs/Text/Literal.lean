import TinyMips.Proofs.Text.Numeral
import TinyMips.Text.Literal

namespace TinyMips.Literal

/-!
# Literals of printed integers

An integer that is printed in base ten is the value of what was printed, as long
as its magnitude fits a signed 64-bit integer.
-/

/-- Integers of the machine are kept as they are. -/
theorem inRange?_of_le
    {value : Int}
    (low : minimum ≤ value)
    (high : value ≤ maximum) :
    inRange? value = some value := by
  simp [inRange?, low, high]

/-- A printed natural number has itself as its value. -/
theorem magnitude?_decimal
    {n : Nat}
    (fits : n ≤ maximum) :
    magnitude? (Numeral.decimal n) = some (n : Int) := by
  have noMark := Numeral.hexBody?_decimal n
  have digits := Numeral.isDecimal_decimal n
  have value := Numeral.value_decimal n
  obtain ⟨digit, _, rest, shape⟩ := Numeral.decimal_eq_cons n
  have least : minimum ≤ (n : Int) := by
    simp only [minimum]
    omega
  rw [shape] at noMark digits value ⊢
  simp only [Numeral.isDecimal, Bool.and_eq_true, Bool.not_eq_true'] at digits
  simp [magnitude?, noMark, signedDigits?, digits, value, inRange?_of_le least fits]

/-- A printed integer has itself as its value. -/
theorem value?_signedDecimal
    {value : Int}
    (low : -maximum ≤ value)
    (high : value ≤ maximum) :
    value? (Numeral.signedDecimal value) = some value := by
  cases value with
  | ofNat n =>
      obtain ⟨digit, _, rest, shape⟩ := Numeral.decimal_eq_cons n
      have read := magnitude?_decimal high
      rw [Numeral.signedDecimal]
      rw [shape] at read ⊢
      rw [value?]
      · exact read
      · simp
      · simp
  | negSucc n =>
      have read : magnitude? (Numeral.decimal (n + 1)) = some ((n + 1 : Nat) : Int) :=
        magnitude?_decimal (by omega)
      rw [Numeral.signedDecimal, value?, read, Option.map_some, Option.some.injEq]
      rw [Int.bmod_eq_of_le]
      · rfl
      · simp only [maximum] at low
        omega
      · omega

end TinyMips.Literal
