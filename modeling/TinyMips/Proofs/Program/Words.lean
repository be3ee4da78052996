import TinyMips.Program.Listing
import TinyMips.Proofs.Instruction.Decoding
import TinyMips.Proofs.Traversal

namespace TinyMips

/-!
# Programs of words

Words stand for a program exactly if each of them is the word of an instruction. Otherwise
the first one that is not is reported, with its index.
-/

namespace Program

/-- A word is decoded exactly to the instruction that it encodes. -/
theorem decodeAt_eq_ok_iff
    {indexed : Word × Nat}
    {instruction : Instruction} :
    decodeAt indexed = .ok instruction ↔ indexed.1 = instruction.encode := by
  rw [eq_comm (a := indexed.1), ← Instruction.decode?_eq_some_iff, decodeAt]
  cases Instruction.decode? indexed.1 <;> simp

/-- A word that encodes no instruction is reported with its index. -/
theorem decodeAt_eq_error_iff
    {indexed : Word × Nat}
    {error : ListingError} :
    decodeAt indexed = .error error ↔
      error = .illegal indexed.2 indexed.1 ∧
        ∀ instruction : Instruction, instruction.encode ≠ indexed.1 := by
  rw [← Instruction.decode?_eq_none_iff, decodeAt]
  cases Instruction.decode? indexed.1 <;> simp [eq_comm]

/-- Words decode to instructions exactly if they are the words of these instructions. -/
theorem mapM_decodeAt_eq_ok_iff
    {words : List Word}
    {instructions : List Instruction} :
    words.zipIdx.mapM decodeAt = .ok instructions ↔
      words = instructions.map Instruction.encode := by
  have unnumbered : words.zipIdx.map Prod.fst = words :=
    List.zipIdx_map_fst 0 words
  rw [mapM_eq_ok_iff]
  simp only [decodeAt_eq_ok_iff]
  rw [← List.forall₂_eq_eq_eq, List.forall₂_map_right_iff]
  nth_rewrite 2 [← unnumbered]
  rw [List.forall₂_map_left_iff]

/-- A list of words that is not empty stands for the instructions that it is the words of. -/
theorem ofWords_cases
    {words : List Word}
    (nonempty : words ≠ []) :
    (∃ instructions : List Instruction,
        words = instructions.map Instruction.encode ∧
          ofWords words = .ok (ofInstructions instructions)) ∨
      ∃ (before : List Instruction) (word : Word) (after : List Word),
        words = before.map Instruction.encode ++ word :: after ∧
          (∀ instruction : Instruction, instruction.encode ≠ word) ∧
            ofWords words = .error (.illegal before.length word) := by
  cases decoded : words.zipIdx.mapM decodeAt with
  | ok instructions =>
      refine .inl ⟨instructions, mapM_decodeAt_eq_ok_iff.mp decoded, ?_⟩
      simp [ofWords, nonempty, decoded]
  | error error =>
      obtain ⟨before, word, after, shape, ⟨instructions, decodedBefore⟩, failed⟩ :=
        mapM_zipIdx_eq_error_iff.mp decoded
      obtain rfl := mapM_decodeAt_eq_ok_iff.mp decodedBefore
      obtain ⟨rfl, foreign⟩ := decodeAt_eq_error_iff.mp failed
      refine .inr ⟨instructions, word, after, shape, foreign, ?_⟩
      simp [ofWords, nonempty, decoded, bind, Except.bind]

/--
Decoding inverts encoding: a word decodes to an instruction exactly if it is the word of
the instruction, so no two instructions share a word, and the fields of a word decide
whether it is one. Words that are not empty either stand for the program with these words,
or the first one that is the word of no instruction is reported.
-/
theorem decoding_inverts_encoding :
    (∀ (word : Word) (instruction : Instruction),
        Instruction.decode? word = some instruction ↔ instruction.encode = word) ∧
      Function.Injective Instruction.encode ∧
      (∀ word : Word,
        (∃ instruction : Instruction, instruction.encode = word) ↔
          (Instruction.Fields.ofWord word).AreLegal) ∧
      ∀ words : List Word,
        words ≠ [] →
        (∃ program, ofWords words = .ok program ∧ program.words = words) ∨
          ∃ index word,
            ofWords words = .error (.illegal index word) ∧
              words[index]? = some word ∧
              (∀ instruction : Instruction, instruction.encode ≠ word) ∧
              ∀ earlier < index,
                ∃ instruction : Instruction, words[earlier]? = some instruction.encode := by
  have inverts (word : Word) (instruction : Instruction) :
      Instruction.decode? word = some instruction ↔ instruction.encode = word :=
    Instruction.decode?_eq_some_iff
  refine ⟨inverts, ?_, fun word => Instruction.exists_encode_eq_iff, ?_⟩
  · intro first second sameWord
    have firstDecoded := (inverts second.encode first).mpr sameWord
    have secondDecoded := (inverts second.encode second).mpr rfl
    exact Option.some.inj (firstDecoded.symm.trans secondDecoded)
  · intro words nonempty
    rcases ofWords_cases nonempty with
      ⟨instructions, shape, loaded⟩ | ⟨before, word, after, shape, foreign, failed⟩
    · exact .inl ⟨_, loaded, shape.symm⟩
    · refine .inr ⟨before.length, word, failed, by simp [shape], foreign, ?_⟩
      intro earlier inside
      have mapped : earlier < (before.map Instruction.encode).length := by simpa using inside
      exact ⟨before[earlier], by simp [shape, List.getElem?_append_left mapped, inside]⟩

/-- A word with a shift amount is reported although the words around it are instructions. -/
theorem shifted_word_is_reported :
    ∃ index word,
      ofWords [0x21080004, 0x00000064, 0x3C080005] = .error (.illegal index word) ∧
        index = 1 ∧ word = 0x00000064 ∧
        ∀ instruction : Instruction, instruction.encode ≠ word := by
  obtain ⟨_, _, _, reports⟩ := decoding_inverts_encoding
  have failed :
      ofWords [0x21080004, 0x00000064, 0x3C080005] = .error (.illegal 1 0x00000064) := by
    decide +kernel
  rcases reports [0x21080004, 0x00000064, 0x3C080005] (by simp) with
    ⟨program, loaded, _⟩ | ⟨index, word, reported, _, foreign, _⟩
  · exact absurd (failed.symm.trans loaded) (by simp)
  · obtain ⟨rfl, rfl⟩ := ListingError.illegal.inj (Except.error.inj (failed.symm.trans reported))
    exact ⟨1, 0x00000064, failed, rfl, rfl, foreign⟩

end Program

end TinyMips
