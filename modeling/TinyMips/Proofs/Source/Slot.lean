import TinyMips.Instruction.Printer
import TinyMips.Proofs.Register.Name
import TinyMips.Proofs.Text.Literal
import TinyMips.Source.Slot

namespace TinyMips

/-!
# Operands that are resolved to what they were printed from

A printed register names that register, and a printed field is within the bounds
of its slot and has the value of the field.
-/

/-- Bounds contain the integers between them, with both of them. -/
theorem Bounds.contains_iff
    {bounds : Bounds}
    {value : Int} :
    bounds.contains value = true ↔ bounds.least ≤ value ∧ value ≤ bounds.greatest := by
  rw [Bounds.contains, Bool.and_eq_true, decide_eq_true_iff, decide_eq_true_iff]

/-- An integer that a signed field can hold is the value of the field that is made of it. -/
theorem Half.toInt_ofInt
    {value : Int}
    (least : Bounds.signedHalf.least ≤ value)
    (greatest : value ≤ Bounds.signedHalf.greatest) :
    (BitVec.ofInt 16 value).toInt = value := by
  simp only [Bounds.signedHalf] at least greatest
  rw [BitVec.toInt_ofInt]
  exact Int.bmod_eq_of_le (by omega) (by omega)

/-- An unsigned integer of sixteen bits fits the half of a word without loss. -/
theorem Half.toNat_ofInt
    {value : Int}
    (least : Bounds.unsignedHalf.least ≤ value)
    (greatest : value ≤ Bounds.unsignedHalf.greatest) :
    ((BitVec.ofInt 16 value).toNat : Int) = value := by
  simp only [Bounds.unsignedHalf] at least greatest
  rw [BitVec.toNat_ofInt]
  omega

namespace Operand

/-- The written form of a register names that register. -/
theorem resolveRegister_text
    (reg : Reg) :
    resolveRegister reg.text = .ok reg := by
  simp [resolveRegister, Reg.lookup?_text]

theorem asRegister_text
    (reg : Reg) :
    (register reg.text).asRegister = .ok reg :=
  resolveRegister_text reg

/-- A printed integer of up to 64 bits is resolved to itself, within bounds. -/
theorem resolveLiteral_signedDecimal
    {bounds : Bounds}
    {value : Int}
    (low : -Literal.maximum ≤ value)
    (high : value ≤ Literal.maximum)
    (inside : bounds.contains value = true) :
    resolveLiteral bounds (Numeral.signedDecimal value) = .ok value := by
  simp [resolveLiteral, Literal.value?_signedDecimal low high, inside]

/-- Bounds that are no narrower than a signed half contain every signed half. -/
theorem contains_of_half
    {bounds : Bounds}
    (least : bounds.least ≤ -0x8000)
    (greatest : 0x7FFF ≤ bounds.greatest)
    (half : Half) :
    bounds.contains half.toInt = true := by
  have low := half.le_toInt
  have high := half.toInt_lt
  exact Bounds.contains_iff.mpr ⟨by omega, by omega⟩

/-- A signed half that is written out is read with its value. -/
theorem resolveLiteral_signedText
    {bounds : Bounds}
    (least : bounds.least ≤ -0x8000)
    (greatest : 0x7FFF ≤ bounds.greatest)
    (half : Half) :
    resolveLiteral bounds (Instruction.signedText half) = .ok half.toInt := by
  have low := half.le_toInt
  have high := half.toInt_lt
  apply resolveLiteral_signedDecimal
  · simp only [Literal.maximum]
    omega
  · simp only [Literal.maximum]
    omega
  · exact contains_of_half least greatest half

/-- A signed half fills its slot with the same bits as before it was written. -/
theorem asSignedHalf_signedText
    (half : Half) :
    (immediate (Instruction.signedText half)).asSignedHalf = .ok half := by
  have read : resolveLiteral .signedHalf (Instruction.signedText half) = .ok half.toInt :=
    resolveLiteral_signedText (by decide) (by decide) half
  simp [asSignedHalf, asImmediate, read, Except.map]

theorem asUnsignedHalf_decimal
    (half : Half) :
    (immediate (Numeral.decimal half.toNat)).asUnsignedHalf = .ok half := by
  have bound := half.isLt
  have inside : Bounds.unsignedHalf.contains (half.toNat : Int) = true := by
    apply Bounds.contains_iff.mpr
    simp only [Bounds.unsignedHalf]
    omega
  have read :
      resolveLiteral .unsignedHalf (Numeral.decimal half.toNat) = .ok (half.toNat : Int) := by
    apply resolveLiteral_signedDecimal _ _ inside
    · simp only [Literal.maximum]
      omega
    · simp only [Literal.maximum]
      omega
  simp [asUnsignedHalf, asImmediate, read, Except.map]

/-- A memory operand is read with the offset and the base that it was written with. -/
theorem asMemory_signedText
    (offset : Half)
    (base : Reg) :
    (memory (some (Instruction.signedText offset)) base.text).asMemory = .ok ⟨offset, base⟩ := by
  have read : resolveLiteral .signedHalf (Instruction.signedText offset) = .ok offset.toInt :=
    resolveLiteral_signedText (by decide) (by decide) offset
  have offsetRead : resolveOffset (some (Instruction.signedText offset)) = .ok offset := by
    simp [resolveOffset, read, Except.map]
  rw [asMemory, offsetRead, resolveRegister_text]
  rfl

end Operand

end TinyMips
