import Mathlib.Data.Char
import Mathlib.Data.List.Lex
import Mathlib.Tactic.SplitIfs
import TinyMips.Text.Basic

namespace TinyMips.Text

/-!
# The order of texts

Texts are ordered by the code points of their characters. Their UTF-8 forms, compared
byte by byte, are in the same order.
-/

/-- The UTF-8 form of a text. -/
def bytes (text : Text) : List UInt8 :=
  text.flatMap String.utf8EncodeChar

/-- The forms of two characters differ in some byte, and it is less for the lesser one. -/
theorem utf8EncodeChar_append_lt
    {first second : Char}
    (less : first < second)
    (firstRest secondRest : List UInt8) :
    String.utf8EncodeChar first ++ firstRest < String.utf8EncodeChar second ++ secondRest := by
  have values : first.toNat < second.toNat := less
  have bound : second.toNat < 0x110000 := by
    have valid := second.valid
    simp only [UInt32.isValidChar, Nat.isValidChar, Char.toNat_val] at valid
    omega
  -- One case for each pair of lengths; where these differ, the first bytes do.
  simp only [String.utf8EncodeChar, Char.toNat_val]
  split_ifs <;>
    simp only [List.cons_append, List.nil_append, List.cons_lt_cons_iff, UInt8.lt_iff_toNat_lt,
      ← UInt8.toNat_inj, UInt8.toNat_ofNat'] <;>
    simp (disch := omega) only [Nat.mod_eq_of_lt] <;>
    omega

/-- Texts in the order of their characters are in the order of their bytes. -/
theorem bytes_lt_of_lt
    {first second : Text}
    (less : first < second) :
    first.bytes < second.bytes := by
  induction less with
  | @nil c rest =>
      obtain ⟨byte, others, shape⟩ :=
        List.exists_cons_of_ne_nil (String.utf8EncodeChar_ne_nil (c := c))
      simp [bytes, shape]
  | rel smaller =>
      exact utf8EncodeChar_append_lt smaller _ _
  | cons _ inductionHypothesis =>
      exact List.append_left_lt inductionHypothesis

/-- Texts are in the order of their bytes. -/
theorem bytes_lt_iff
    {first second : Text} :
    first.bytes < second.bytes ↔ first < second := by
  constructor
  · intro less
    rcases lt_trichotomy (α := List Char) first second with before | rfl | after
    · exact before
    · exact absurd less (List.lt_irrefl _)
    · exact absurd less (List.lt_asymm (bytes_lt_of_lt after))
  · exact bytes_lt_of_lt

/-- Texts are the same exactly if their bytes are. -/
theorem bytes_inj
    {first second : Text} :
    first.bytes = second.bytes ↔ first = second := by
  constructor
  · intro same
    rcases lt_trichotomy (α := List Char) first second with before | equal | after
    · exact absurd (bytes_lt_iff.mpr before) (same ▸ List.lt_irrefl _)
    · exact equal
    · exact absurd (bytes_lt_iff.mpr after) (same ▸ List.lt_irrefl _)
  · rintro rfl
    rfl

end TinyMips.Text
