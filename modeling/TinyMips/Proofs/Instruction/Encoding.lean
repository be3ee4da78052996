import TinyMips.Instruction.Encoding

namespace TinyMips.Instruction

/-!
# Decoding the words that encoding writes

A packed word is cut back into the fields it was packed from, so the word of an
instruction decodes to that instruction.
-/

/-- The fields of a word with an immediate are those that it was packed from. -/
theorem Fields.ofWord_packImmediate
    (opcode : BitVec 6)
    (rs rt : Reg)
    (imm : Half) :
    Fields.ofWord (packImmediate opcode rs rt imm) =
      { opcode, rs, rt, rd := ⟨imm.extractLsb' 11 5⟩, shift := imm.extractLsb' 6 5,
        function := imm.extractLsb' 0 6, imm } := by
  have opcodeField :
      (opcode ++ rs.number ++ rt.number ++ imm).extractLsb' 26 6 = opcode := by
    rw [BitVec.extractLsb'_append_eq_of_le (by decide),
      BitVec.extractLsb'_append_eq_of_le (by decide)]
    exact BitVec.extractLsb'_append_eq_left
  have rsField :
      (opcode ++ rs.number ++ rt.number ++ imm).extractLsb' 21 5 = rs.number := by
    rw [BitVec.extractLsb'_append_eq_of_le (by decide),
      BitVec.extractLsb'_append_eq_of_le (by decide)]
    exact BitVec.extractLsb'_append_eq_right
  have rtField :
      (opcode ++ rs.number ++ rt.number ++ imm).extractLsb' 16 5 = rt.number := by
    rw [BitVec.extractLsb'_append_eq_of_le (by decide)]
    exact BitVec.extractLsb'_append_eq_right
  have lowField
      {start length : Nat}
      (inside : start + length ≤ 16) :
      (opcode ++ rs.number ++ rt.number ++ imm).extractLsb' start length =
        imm.extractLsb' start length :=
    BitVec.extractLsb'_append_eq_of_add_le inside
  have immField :
      (opcode ++ rs.number ++ rt.number ++ imm).extractLsb' 0 16 = imm :=
    BitVec.extractLsb'_append_eq_right
  simp only [Fields.ofWord, packImmediate, Fields.mk.injEq]
  exact ⟨opcodeField, congrArg Reg.mk rsField, congrArg Reg.mk rtField,
    congrArg Reg.mk (lowField (by decide)), lowField (by decide),
    lowField (by decide), immField⟩

/-- The last three fields of a word of registers lie where the immediate of other words does. -/
theorem packRegisters_eq_packImmediate
    (opcode : BitVec 6)
    (rs rt rd : Reg)
    (function : BitVec 6) :
    packRegisters opcode rs rt rd function =
      packImmediate opcode rs rt (rd.number ++ (0 : BitVec 5) ++ function) := by
  have inner :
      opcode ++ rs.number ++ rt.number ++ rd.number ++ (0 : BitVec 5) =
        opcode ++ rs.number ++ rt.number ++ (rd.number ++ (0 : BitVec 5)) :=
    BitVec.append_assoc
  have outer :
      opcode ++ rs.number ++ rt.number ++ (rd.number ++ (0 : BitVec 5)) ++ function =
        opcode ++ rs.number ++ rt.number ++ (rd.number ++ (0 : BitVec 5) ++ function) :=
    BitVec.append_assoc
  calc packRegisters opcode rs rt rd function
      = opcode ++ rs.number ++ rt.number ++ (rd.number ++ (0 : BitVec 5)) ++ function :=
          congrArg (· ++ function) inner
    _ = packImmediate opcode rs rt (rd.number ++ (0 : BitVec 5) ++ function) := outer

theorem Fields.ofWord_packRegisters
    (opcode : BitVec 6)
    (rs rt rd : Reg)
    (function : BitVec 6) :
    Fields.ofWord (packRegisters opcode rs rt rd function) =
      { opcode, rs, rt, rd, shift := 0, function,
        imm := rd.number ++ (0 : BitVec 5) ++ function } := by
  have rdField :
      (rd.number ++ (0 : BitVec 5) ++ function).extractLsb' 11 5 = rd.number := by
    rw [BitVec.extractLsb'_append_eq_of_le (by decide)]
    exact BitVec.extractLsb'_append_eq_left
  have shiftField :
      (rd.number ++ (0 : BitVec 5) ++ function).extractLsb' 6 5 = 0 := by
    rw [BitVec.extractLsb'_append_eq_of_le (by decide)]
    exact BitVec.extractLsb'_append_eq_right
  have functionField :
      (rd.number ++ (0 : BitVec 5) ++ function).extractLsb' 0 6 = function :=
    BitVec.extractLsb'_append_eq_right
  rw [packRegisters_eq_packImmediate, ofWord_packImmediate, Fields.mk.injEq]
  exact ⟨rfl, rfl, rfl, congrArg Reg.mk rdField, shiftField, functionField, rfl⟩

/-- Decoding reads back the instruction that encoding wrote. -/
theorem decode?_encode
    (instruction : Instruction) :
    decode? instruction.encode = some instruction := by
  cases instruction with
  | and rd rs rt
  | slt rd rs rt =>
      simp [decode?, encode, Fields.ofWord_packRegisters, ofFields?, mnemonic,
        Mnemonic.opcode, Mnemonic.function?]
  | addi rt rs imm
  | lui rt imm
  | lw rt base offset
  | sw rt base offset
  | beq rs rt offset =>
      simp [decode?, encode, Fields.ofWord_packImmediate, ofFields?, mnemonic,
        Mnemonic.opcode, Reg.isZero]

end TinyMips.Instruction
