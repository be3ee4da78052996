import TinyMips.Program.Listing
import TinyMips.Proofs.Instruction.Encoding
import TinyMips.Proofs.Text.Line
import TinyMips.Proofs.Text.Numeral
import TinyMips.Proofs.Text.Trim
import TinyMips.Proofs.Traversal

namespace TinyMips

/-!
# Listings are read back

The listing of a program holds its words, and its words stand for its
instructions.
-/

namespace Word

theorem hex8_isOneLine
    (word : Word) :
    word.hex8.IsOneLine :=
  Numeral.forall_mem_hex (by decide)

/-- Every word is printed with eight digits. -/
theorem length_hex8 (word : Word) : word.hex8.length = 8 := by
  have digits : (Nat.toDigits 16 word.toNat).length ≤ 8 := by
    rw [Nat.length_toDigits_le_iff (by decide) (by decide)]
    exact word.isLt
  simp [hex8, Numeral.hex, List.leftpad, digits]

theorem trim_hex8
    (word : Word) :
    word.hex8.trim = word.hex8 := by
  have noWhiteSpace : ∀ c ∈ word.hex8, Text.isWhiteSpace c = false :=
    Numeral.forall_mem_hex (by decide)
  exact Text.trim_of_noWhiteSpace noWhiteSpace

end Word

namespace Listing

/-- A printed word is not taken for an empty row or a comment. -/
theorem isMeaningful_hex8
    (word : Word) :
    isMeaningful word.hex8 = true := by
  have noComment : ∀ c ∈ word.hex8, c ≠ '#' :=
    Numeral.forall_mem_hex (by decide)
  cases shape : word.hex8 with
  | nil =>
      exact absurd shape (Numeral.hex_ne_nil 8 word.toNat)
  | cons c rest =>
      exact decide_eq_true (noComment c (by simp [shape]))

/-- The digits of a word are read as that word, with and without a mark in front. -/
theorem word?_of_digits
    {row : Text}
    {word : Word}
    (digits : (Numeral.hexBody? row).getD row = word.hex8) :
    word? row = some word := by
  have hexadecimal : Numeral.isHexadecimal word.hex8 = true :=
    Numeral.isHexadecimal_hex 8 word.toNat
  have value : Numeral.value 16 word.hex8 = word.toNat :=
    Numeral.value_hex 8 word.toNat
  have small : word.toNat < 0x100000000 :=
    word.isLt
  simp [word?, digits, hexadecimal, value, small]

/-- A printed word is read back. -/
theorem word?_hex8
    (word : Word) :
    word? word.hex8 = some word := by
  apply word?_of_digits
  have noMark : Numeral.hexBody? word.hex8 = none :=
    Numeral.hexBody?_hex 8 word.toNat
  rw [noMark]
  rfl

theorem word?_address
    (word : Word) :
    word? word.address = some word :=
  word?_of_digits rfl

/-- The rows of a listing are its printed words. -/
theorem meaningfulRows_listing
    (program : Program) :
    meaningfulRows program.listing = (program.words.map Word.hex8).zipIdx 1 := by
  have rows : program.listing.rows = program.words.map Word.hex8 :=
    Text.rows_of_printed fun word _ => word.hex8_isOneLine
  have trimmed : (program.words.map Word.hex8).map Text.trim = program.words.map Word.hex8 := by
    simp [Function.comp_def, Word.trim_hex8]
  rw [meaningfulRows, rows, trimmed, List.filter_eq_self]
  rintro ⟨row, number⟩ member
  obtain ⟨word, _, rfl⟩ := List.mem_map.mp (List.fst_mem_of_mem_zipIdx member)
  exact isMeaningful_hex8 word

/-- The listing of a program with instructions is read as the words of the program. -/
theorem read_listing
    {program : Program}
    (nonempty : program.words ≠ []) :
    read program.listing = .ok program.words := by
  have rowsRead : (meaningfulRows program.listing).mapM readRow = .ok program.words := by
    have reads (word : Word) (number : Nat) : readRow (word.hex8, number) = .ok (id word) := by
      simp [readRow, word?_hex8]
    rw [meaningfulRows_listing, mapM_numbered_of_reads reads, List.map_id]
  rw [read, bind_eq_ok_iff]
  exact ⟨program.words, rowsRead, by simp [nonempty]⟩

end Listing

namespace Program

/-- Only the empty program has no words. -/
theorem words_eq_nil_iff
    {program : Program} :
    program.words = [] ↔ program.size = 0 := by
  simp [words, size]

/-- The words of a program with instructions stand for these instructions. -/
theorem ofWords_words
    {program : Program}
    (nonempty : program.words ≠ []) :
    ofWords program.words = .ok (ofInstructions program.instructions.toList) := by
  have decoded :
      program.words.zipIdx.mapM decodeAt = .ok program.instructions.toList := by
    have reads (instruction : Instruction) (number : Nat) :
        decodeAt (instruction.encode, number) = .ok (id instruction) := by
      simp [decodeAt, Instruction.decode?_encode]
    rw [words, mapM_numbered_of_reads reads, List.map_id]
  simp [ofWords, nonempty, decoded]

end Program

end TinyMips
