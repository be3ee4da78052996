import TinyMips.Proofs.Program.Listing
import TinyMips.Proofs.Program.Words
import TinyMips.Proofs.Grammar.Token
import TinyMips.Proofs.Text.Rows

namespace TinyMips

/-!
# What a listing must look like

A text is read as a listing exactly if it has a row that says something and every such row
spells a word. Otherwise the first such row that does not is reported, with its number among
all rows. A program that was read is written in one way, and reading that changes nothing.
-/

namespace Listing

/-- A row is a word: hexadecimal digits spell it, and there may be a mark before them. -/
def IsWord (row : Text) (word : Word) : Prop :=
  ∃ mark digits : Text,
    row = mark ++ digits ∧
      (mark = [] ∨ mark = ['0', 'x'] ∨ mark = ['0', 'X']) ∧
      Numeral.Spells 16 digits word.toNat

/-- A row is read as a word exactly if it is one. -/
theorem word?_eq_some_iff
    {row : Text}
    {word : Word} :
    word? row = some word ↔ IsWord row word := by
  have ofDigits
      {digits : Text}
      {word : Word} :
      (if Numeral.isHexadecimal digits then
          if Numeral.value 16 digits < 0x100000000 then
            some (BitVec.ofNat 32 (Numeral.value 16 digits))
          else none
        else none) = some word ↔
        Numeral.Spells 16 digits word.toNat := by
    rw [Numeral.spells_sixteen_iff, Option.ite_none_right_eq_some,
      Option.ite_none_right_eq_some, Option.some.injEq]
    refine and_congr_right fun _ => ⟨?_, ?_⟩
    · rintro ⟨small, rfl⟩
      exact (Nat.mod_eq_of_lt small).symm
    · intro value
      rw [value]
      exact ⟨word.isLt, BitVec.ofNat_toNat 32 word⟩
  rw [word?, ofDigits]
  cases marked : Numeral.hexBody? row with
  | some digits =>
      obtain ⟨mark, isMark, rfl⟩ := Token.hexBody?_eq_some_iff.mp marked
      constructor
      · intro spells
        refine ⟨['0', mark], digits, rfl, .inr ?_, spells⟩
        simpa using isMark
      · rintro ⟨_, others, shape, rfl | rfl | rfl, spells⟩
        · -- The mark itself is no digit.
          obtain rfl : '0' :: mark :: digits = others := shape
          obtain ⟨_, inBase⟩ := Token.isHexadecimal_iff.mp (Numeral.spells_sixteen_iff.mp spells).1
          have digit : Text.isHexDigit mark = true := inBase mark (by simp)
          rcases isMark with rfl | rfl <;> exact absurd digit (by decide)
        · obtain ⟨_, rfl⟩ : _ ∧ digits = others := by simpa using shape
          exact spells
        · obtain ⟨_, rfl⟩ : _ ∧ digits = others := by simpa using shape
          exact spells
  | none =>
      constructor
      · intro spells
        exact ⟨[], row, rfl, .inl rfl, spells⟩
      · rintro ⟨_, digits, rfl, rfl | rfl | rfl, spells⟩
        · exact spells
        · simp [Numeral.hexBody?] at marked
        · simp [Numeral.hexBody?] at marked

/-- A row is read exactly if it is a word. -/
theorem readRow_eq_ok_iff
    {numbered : Text × Nat}
    {word : Word} :
    readRow numbered = .ok word ↔ IsWord numbered.1 word := by
  rw [← word?_eq_some_iff, readRow]
  cases word? numbered.1 <;> simp

/-- A row that is no word is reported with its number and its text. -/
theorem readRow_eq_error_iff
    {numbered : Text × Nat}
    {error : ListingError} :
    readRow numbered = .error error ↔
      (∀ word, ¬ IsWord numbered.1 word) ∧ error = .badWord numbered.2 numbered.1 := by
  simp only [← word?_eq_some_iff, readRow]
  cases word? numbered.1 <;> simp [eq_comm]

/-- The rows that say something, trimmed and numbered. -/
def numbered (rows : List Text) : List (Text × Nat) :=
  ((rows.map Text.trim).zipIdx 1).filter fun row => isMeaningful row.1

/-- Rows are read exactly if each meaningful row is a word. -/
theorem mapM_readRow_eq_ok_iff
    {rows : List Text}
    {words : List Word} :
    (numbered rows).mapM readRow = .ok words ↔
      List.Forall₂ IsWord ((rows.map Text.trim).filter isMeaningful) words := by
  have unnumbered :
      (numbered rows).map Prod.fst = (rows.map Text.trim).filter isMeaningful := by
    calc (numbered rows).map Prod.fst
        = (((rows.map Text.trim).zipIdx 1).map Prod.fst).filter isMeaningful := by
          rw [List.filter_map]
          rfl
      _ = (rows.map Text.trim).filter isMeaningful := by rw [List.zipIdx_map_fst]
  rw [mapM_eq_ok_iff, ← unnumbered, List.forall₂_map_left_iff]
  simp only [readRow_eq_ok_iff]

/-- Every row that says something is a word. -/
def AreWords (rows : List Text) : Prop :=
  ∀ row ∈ rows, isMeaningful row.trim = true → ∃ word, IsWord row.trim word

theorem exists_mapM_readRow_iff
    {rows : List Text} :
    (∃ words, (numbered rows).mapM readRow = .ok words) ↔ AreWords rows := by
  simp only [mapM_readRow_eq_ok_iff, exists_forall₂_iff]
  simp [AreWords]

/-- The words of a listing are what its rows with something to say spell, one for each. -/
theorem read_eq_ok_iff
    {text : Text}
    {words : List Word} :
    read text = .ok words ↔
      words ≠ [] ∧ List.Forall₂ IsWord ((text.rows.map Text.trim).filter isMeaningful) words := by
  have asNumbered : meaningfulRows text = numbered text.rows := rfl
  rw [← mapM_readRow_eq_ok_iff, read, bind_eq_ok_iff, asNumbered]
  constructor
  · rintro ⟨found, rowsRead, rest⟩
    by_cases nothing : found = []
    · simp [nothing] at rest
    · obtain rfl : found = words := by simpa [nothing] using rest
      exact ⟨nothing, rowsRead⟩
  · rintro ⟨nonempty, rowsRead⟩
    exact ⟨words, rowsRead, by simp [nonempty]⟩

/-- A listing can be read exactly if there is a meaningful row and all of them are words. -/
theorem exists_read_iff
    {text : Text} :
    (∃ words, read text = .ok words) ↔
      (∃ row ∈ text.rows, isMeaningful row.trim = true) ∧ AreWords text.rows := by
  simp only [← exists_mapM_readRow_iff, mapM_readRow_eq_ok_iff, read_eq_ok_iff]
  constructor
  · rintro ⟨words, nonempty, areWords⟩
    refine ⟨?_, words, areWords⟩
    by_contra nothing
    have noRows : (text.rows.map Text.trim).filter isMeaningful = [] := by
      simpa using nothing
    rw [noRows] at areWords
    exact nonempty (List.forall₂_nil_left_iff.mp areWords)
  · rintro ⟨⟨row, member, meaningful⟩, words, areWords⟩
    refine ⟨words, ?_, areWords⟩
    rintro rfl
    have noRows := List.forall₂_nil_right_iff.mp areWords
    have found : row.trim ∈ (text.rows.map Text.trim).filter isMeaningful :=
      List.mem_filter.mpr ⟨List.mem_map_of_mem member, meaningful⟩
    simp [noRows] at found

/-- The first row that says something and is no word: its number, and the row trimmed. -/
inductive FirstBad (rows : List Text) : Nat → Text → Prop where
  | mk
      {before after : List Text}
      {row : Text}
      (split : rows = before ++ row :: after)
      (goodBefore : AreWords before)
      (meaningful : isMeaningful row.trim = true)
      (bad : ∀ word, ¬ IsWord row.trim word) :
      FirstBad rows (before.length + 1) row.trim

/-- Reading rows fails exactly at the first bad one. -/
theorem mapM_readRow_eq_error_iff
    {rows : List Text}
    {error : ListingError} :
    (numbered rows).mapM readRow = .error error ↔
      ∃ number row, FirstBad rows number row ∧ error = .badWord number row := by
  rw [numbered, mapM_filter_zipIdx_eq_error_iff]
  constructor
  · rintro ⟨_, _, _, shape, wordsBefore, meaningful, failed⟩
    obtain ⟨before, rest, rfl, rfl, shapeRest⟩ := List.map_eq_append_iff.mp shape
    obtain ⟨row, after, rfl, rfl, rfl⟩ := List.map_eq_cons_iff.mp shapeRest
    obtain ⟨bad, rfl⟩ := readRow_eq_error_iff.mp failed
    exact ⟨_, _, .mk rfl (exists_mapM_readRow_iff.mp wordsBefore) meaningful bad,
      by simp [Nat.add_comm]⟩
  · rintro ⟨_, _, ⟨split, goodBefore, meaningful, bad⟩, rfl⟩
    rename_i before after row
    refine ⟨before.map Text.trim, row.trim, after.map Text.trim, by simp [split],
      exists_mapM_readRow_iff.mpr goodBefore, meaningful, ?_⟩
    exact readRow_eq_error_iff.mpr ⟨bad, by simp [Nat.add_comm]⟩

/-- Reading fails at the first bad row, or if there is nothing that is said at all. -/
theorem read_eq_error_iff
    {text : Text}
    {error : ListingError} :
    read text = .error error ↔
      (∃ number row, FirstBad text.rows number row ∧ error = .badWord number row) ∨
        (∀ row ∈ text.rows, isMeaningful row.trim = false) ∧ error = .empty := by
  have asNumbered : meaningfulRows text = numbered text.rows := rfl
  rw [read, bind_eq_error_iff, asNumbered, mapM_readRow_eq_error_iff]
  refine or_congr_right ?_
  simp only [mapM_readRow_eq_ok_iff]
  constructor
  · rintro ⟨words, areWords, rest⟩
    by_cases nothing : words = []
    · subst nothing
      refine ⟨?_, by simpa [eq_comm] using rest⟩
      simpa using List.forall₂_nil_right_iff.mp areWords
    · simp [nothing] at rest
  · rintro ⟨nothing, rfl⟩
    refine ⟨[], ?_, rfl⟩
    rw [List.forall₂_nil_right_iff]
    simpa using nothing

/-- Rows that are skipped count, and a mark alone is no word. -/
example :
    read (Text.ofString "# words\n\n 0x20080004\r\n0X\n0000000000000000") =
      .error (.badWord 4 (Text.ofString "0X")) := by
  decide +kernel

end Listing

/-! ## Listings of programs that were read -/

/-- A listing that loads holds words, and they stand for the program. -/
theorem Program.words_of_ofListing
    {text : Text}
    {program : Program}
    (loaded : ofListing text = .ok program) :
    program.words ≠ [] ∧ program = ofInstructions program.instructions.toList := by
  obtain ⟨words, wordsRead, decoded⟩ := bind_eq_ok_iff.mp loaded
  obtain ⟨nonempty, _⟩ := Listing.read_eq_ok_iff.mp wordsRead
  rcases ofWords_cases nonempty with
    ⟨instructions, rfl, standsFor⟩ | ⟨_, _, _, _, _, failed⟩
  · obtain rfl := Except.ok.inj (standsFor.symm.trans decoded)
    exact ⟨nonempty, rfl⟩
  · exact absurd (failed.symm.trans decoded) (by simp)

/-- The listing of a program that was loaded loads as this program. -/
theorem Program.ofListing_listing
    {text : Text}
    {program : Program}
    (loaded : ofListing text = .ok program) :
    ofListing program.listing = .ok program := by
  obtain ⟨nonempty, shape⟩ := words_of_ofListing loaded
  have decoded : ofWords program.words = .ok program := by
    rw [ofWords_words nonempty, ← shape]
  exact bind_eq_ok_iff.mpr ⟨program.words, Listing.read_listing nonempty, decoded⟩

/--
A text has rows, in one way. It is read as a listing exactly if one of them says something
and all that do are words, and then as these words in order. If a row that says something is
no word, the first such row is reported, and if none says anything, that is. What was loaded
as a program is written as a listing that loads as the same program and is written the same.
-/
theorem Listing.reads_exactly_the_words
    (text : Text) :
    ∃ rows : List Text,
      (∀ others, Text.AreRows text others ↔ others = rows) ∧
      (∀ words,
        read text = .ok words ↔
          words ≠ [] ∧ List.Forall₂ IsWord ((rows.map Text.trim).filter isMeaningful) words) ∧
      ((∃ words, read text = .ok words) ↔
        (∃ row ∈ rows, isMeaningful row.trim = true) ∧ AreWords rows) ∧
      (∀ error,
        read text = .error error ↔
          (∃ number row, FirstBad rows number row ∧ error = .badWord number row) ∨
            (∀ row ∈ rows, isMeaningful row.trim = false) ∧ error = .empty) ∧
      ∀ program,
        Program.ofListing text = .ok program →
          ∃ reloaded,
            Program.ofListing program.listing = .ok reloaded ∧
              reloaded = program ∧ reloaded.listing = program.listing := by
  refine ⟨text.rows, fun others => Text.areRows_iff, fun words => read_eq_ok_iff, ?_,
    fun error => read_eq_error_iff, ?_⟩
  · exact exists_read_iff
  · intro program loaded
    exact ⟨program, Program.ofListing_listing loaded, rfl, rfl⟩

end TinyMips
