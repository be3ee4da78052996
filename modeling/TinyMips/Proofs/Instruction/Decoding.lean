import TinyMips.Proofs.Instruction.Encoding

namespace TinyMips.Instruction

/-!
# Words that decode

A word is put together again from the fields it is cut into, so a word that decodes is
the one that encoding writes for its instruction, and no other word decodes to it.
-/

/-- A word is its operation code, its first two registers and its lower half. -/
theorem packImmediate_ofWord (word : Word) :
    packImmediate (Fields.ofWord word).opcode (Fields.ofWord word).rs (Fields.ofWord word).rt
        (Fields.ofWord word).imm =
      word := by
  calc word.extractLsb' 26 6 ++ word.extractLsb' 21 5 ++ word.extractLsb' 16 5 ++
        word.extractLsb' 0 16
      = word.extractLsb' 21 11 ++ word.extractLsb' 16 5 ++ word.extractLsb' 0 16 :=
          congrArg (· ++ word.extractLsb' 16 5 ++ word.extractLsb' 0 16)
            (BitVec.extractLsb'_append_extractLsb'_eq_extractLsb' (by decide))
    _ = word.extractLsb' 16 16 ++ word.extractLsb' 0 16 :=
          congrArg (· ++ word.extractLsb' 0 16)
            (BitVec.extractLsb'_append_extractLsb'_eq_extractLsb' (by decide))
    _ = word.extractLsb' 0 32 :=
          BitVec.extractLsb'_append_extractLsb'_eq_extractLsb' (by decide)
    _ = word := BitVec.extractLsb'_eq_self

/-- The lower half of a word is its third register, its shift and its function code. -/
theorem imm_ofWord (word : Word) :
    (Fields.ofWord word).imm =
      (Fields.ofWord word).rd.number ++ (Fields.ofWord word).shift ++
        (Fields.ofWord word).function := by
  symm
  calc word.extractLsb' 11 5 ++ word.extractLsb' 6 5 ++ word.extractLsb' 0 6
      = word.extractLsb' 6 10 ++ word.extractLsb' 0 6 :=
          congrArg (· ++ word.extractLsb' 0 6)
            (BitVec.extractLsb'_append_extractLsb'_eq_extractLsb' (by decide))
    _ = word.extractLsb' 0 16 :=
          BitVec.extractLsb'_append_extractLsb'_eq_extractLsb' (by decide)

/-- A word without a shift is packed again from its fields. -/
theorem packRegisters_ofWord
    {word : Word}
    (noShift : (Fields.ofWord word).shift = 0) :
    packRegisters (Fields.ofWord word).opcode (Fields.ofWord word).rs (Fields.ofWord word).rt
        (Fields.ofWord word).rd (Fields.ofWord word).function =
      word := by
  rw [packRegisters_eq_packImmediate, ← noShift, ← imm_ofWord, packImmediate_ofWord]

/--
The fields of the machine's words: three registers need a zero shift and one of two
function codes, an upper immediate needs register zero in front of its destination.
-/
def Fields.AreLegal (fields : Fields) : Prop :=
  (fields.opcode = 0x00 ∧ fields.shift = 0 ∧
      (fields.function = 0x24 ∨ fields.function = 0x2A)) ∨
    (fields.opcode = 0x0F ∧ fields.rs = Reg.zero) ∨
    fields.opcode = 0x08 ∨ fields.opcode = 0x23 ∨ fields.opcode = 0x2B ∨ fields.opcode = 0x04

/-- Legal fields belong to an instruction, whose word has these fields. -/
theorem exists_decode?_of_areLegal
    {word : Word}
    (areLegal : (Fields.ofWord word).AreLegal) :
    ∃ instruction, decode? word = some instruction ∧ instruction.encode = word := by
  have immediate := packImmediate_ofWord word
  rcases areLegal with ⟨opcode, noShift, function⟩ | ⟨opcode, noSource⟩ | opcode | opcode |
    opcode | opcode
  · have registers := packRegisters_ofWord noShift
    rw [opcode] at registers
    rcases function with function | function
    · rw [function] at registers
      exact ⟨.and _ _ _, by simp [decode?, ofFields?, opcode, noShift, function], registers⟩
    · rw [function] at registers
      exact ⟨.slt _ _ _, by simp [decode?, ofFields?, opcode, noShift, function], registers⟩
  · rw [opcode, noSource] at immediate
    exact ⟨.lui _ _, by simp [decode?, ofFields?, opcode, noSource, Reg.isZero], immediate⟩
  · rw [opcode] at immediate
    exact ⟨.addi _ _ _, by simp [decode?, ofFields?, opcode], immediate⟩
  · rw [opcode] at immediate
    exact ⟨.lw _ _ _, by simp [decode?, ofFields?, opcode], immediate⟩
  · rw [opcode] at immediate
    exact ⟨.sw _ _ _, by simp [decode?, ofFields?, opcode], immediate⟩
  · rw [opcode] at immediate
    exact ⟨.beq _ _ _, by simp [decode?, ofFields?, opcode], immediate⟩

/-- A word that is decoded has legal fields. -/
theorem areLegal_of_decode?
    {word : Word}
    {instruction : Instruction}
    (found : decode? word = some instruction) :
    (Fields.ofWord word).AreLegal := by
  unfold decode? ofFields? at found
  unfold Fields.AreLegal
  generalize Fields.ofWord word = fields at found ⊢
  split at found
  · rename_i opcode
    split at found
    · simp at found
    · rename_i noShift
      refine .inl ⟨opcode, Decidable.not_not.mp noShift, ?_⟩
      split at found
      · exact .inl (by assumption)
      · split at found
        · exact .inr (by assumption)
        · simp at found
  · right
    repeat' split at found
    all_goals simp_all [Reg.isZero]

/-- A word decodes to an instruction exactly if it is the word of the instruction. -/
theorem decode?_eq_some_iff
    {word : Word}
    {instruction : Instruction} :
    decode? word = some instruction ↔ instruction.encode = word := by
  constructor
  · intro found
    obtain ⟨other, sameWord, encoded⟩ := exists_decode?_of_areLegal (areLegal_of_decode? found)
    obtain rfl : instruction = other := Option.some.inj (found.symm.trans sameWord)
    exact encoded
  · rintro rfl
    exact decode?_encode instruction

/-- A word is not decoded exactly if it encodes no instruction. -/
theorem decode?_eq_none_iff
    {word : Word} :
    decode? word = none ↔ ∀ instruction : Instruction, instruction.encode ≠ word := by
  simp only [Option.eq_none_iff_forall_ne_some, Ne, decode?_eq_some_iff]

/-- The words of instructions are those with legal fields. -/
theorem exists_encode_eq_iff
    {word : Word} :
    (∃ instruction : Instruction, instruction.encode = word) ↔
      (Fields.ofWord word).AreLegal := by
  constructor
  · rintro ⟨instruction, rfl⟩
    exact areLegal_of_decode? (decode?_encode instruction)
  · intro areLegal
    obtain ⟨instruction, _, encoded⟩ := exists_decode?_of_areLegal areLegal
    exact ⟨instruction, encoded⟩

end TinyMips.Instruction
