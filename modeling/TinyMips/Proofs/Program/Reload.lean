import TinyMips.Assembly.Basic
import TinyMips.Proofs.Program.Listing
import TinyMips.Proofs.Simulation.Call

namespace TinyMips

/-!
# Programs survive their listings

A program that is written as a listing and loaded again has the same
instructions, and no simulation can tell it from the one that was written.
-/

/--
The listing of a program holds its words, its words stand for its instructions,
and what can be seen of a simulation depends on the instructions alone.
-/
theorem Program.listing_reloads
    {program : Program}
    (nonempty : 0 < program.size) :
    Listing.read program.listing = .ok program.words ∧
      (∃ reloaded,
        ofWords program.words = .ok reloaded ∧
          reloaded.instructions = program.instructions ∧
          ∀ (config : Config) (calls : List Call),
            (Simulator.new reloaded config).observe calls =
              (Simulator.new program config).observe calls) ∧
      ∀ other : Program,
        other.instructions = program.instructions →
        ∀ (config : Config) (traced : Bool) (calls : List Call),
          (Simulator.new other { config with traceInstructions := traced }).observe calls =
            (Simulator.new program config).observe calls := by
  have words : program.words ≠ [] := by
    rw [Ne, words_eq_nil_iff]
    omega
  have same
      (other : Program)
      (sameInstructions : other.instructions = program.instructions)
      (config : Config)
      (traced : Bool)
      (calls : List Call) :
      (Simulator.new other { config with traceInstructions := traced }).observe calls =
        (Simulator.new program config).observe calls :=
    ((Simulator.matches_new sameInstructions.symm config traced).observe calls).symm
  have reloaded :
      (ofInstructions program.instructions.toList).instructions = program.instructions :=
    Array.toArray_toList
  refine ⟨Listing.read_listing words, ?_, same⟩
  refine ⟨ofInstructions program.instructions.toList, ofWords_words words, reloaded, ?_⟩
  intro config calls
  exact same (ofInstructions _) reloaded config config.traceInstructions calls

/-- A labelled source with a store and a branch back. -/
def storeSource : Text :=
  Text.ofString "again: addi $t0, $t0, 4\nsw $t0, -4($t0)\nbeq $zero, $zero, again"

/-- The three words of `storeSource` are read back, and nothing that is seen afterwards differs. -/
theorem storeSource_reloads :
    ∃ program reloaded,
      assemble storeSource = .ok program ∧
        program.words = [0x21080004, 0xAD08FFFC, 0x1000FFFD] ∧
        Listing.read program.listing = .ok [0x21080004, 0xAD08FFFC, 0x1000FFFD] ∧
        Program.ofWords [0x21080004, 0xAD08FFFC, 0x1000FFFD] = .ok reloaded ∧
        reloaded.instructions = program.instructions ∧
        ∀ (config : Config) (calls : List Call),
          (Simulator.new reloaded config).observe calls =
            (Simulator.new program config).observe calls := by
  have found :
      (assemble storeSource).toOption.map Program.words =
        some [0x21080004, 0xAD08FFFC, 0x1000FFFD] := by
    decide +kernel
  obtain ⟨program, assembled⟩ :=
    exists_eq_ok_of_isOk (by decide +kernel : (assemble storeSource).isOk = true)
  rw [assembled] at found
  have words : program.words = [0x21080004, 0xAD08FFFC, 0x1000FFFD] :=
    Option.some.inj found
  have nonempty : 0 < program.size := by
    rw [Nat.pos_iff_ne_zero, Ne, ← Program.words_eq_nil_iff, words]
    decide
  obtain ⟨read, ⟨reloaded, loaded, sameInstructions, same⟩, _⟩ :=
    Program.listing_reloads nonempty
  rw [words] at read loaded
  exact ⟨program, reloaded, assembled, words, read, loaded, sameInstructions, same⟩

end TinyMips
