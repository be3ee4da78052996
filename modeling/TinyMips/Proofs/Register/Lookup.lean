import Mathlib.Data.List.Forall2
import TinyMips.Proofs.Grammar.Value

namespace TinyMips

/-!
# What registers are called

A register is called by its number or by a name, after a dollar sign or without one. The
case of the letters of a name does not matter, and neither do zeros before a number. A text
finds the one register that is called by it, and no text is a name of two registers.
-/

namespace Text

/-- A capital letter, and the same letter in lower case. -/
def IsCapitalOf (capital small : Char) : Prop :=
  'A'.toNat ≤ capital.toNat ∧ capital.toNat ≤ 'Z'.toNat ∧ small.toNat = capital.toNat + 32

/-- The same character, or the same letter in the other case. -/
def SameLetter (c other : Char) : Prop :=
  c = other ∨ IsCapitalOf c other ∨ IsCapitalOf other c

/-- Texts that differ at most in the case of their letters. -/
def SameLetters : Text → Text → Prop :=
  List.Forall₂ SameLetter

/-- The capital letters are moved by thirty-two; all other characters stay. -/
theorem toNat_toLower
    (c : Char) :
    c.toLower.toNat =
      if 'A'.toNat ≤ c.toNat ∧ c.toNat ≤ 'Z'.toNat then c.toNat + 32 else c.toNat := by
  unfold Char.toLower
  split
  · rename_i upper
    have bounds : 65 ≤ c.toNat ∧ c.toNat ≤ 90 := upper
    have shifted : (c.val + ('a'.val - 'A'.val)).toNat = c.toNat + 32 := by
      rw [UInt32.toNat_add, Char.toNat_val]
      exact Nat.mod_eq_of_lt (show c.toNat + 32 < 0x100000000 by omega)
    exact shifted.trans (if_pos bounds).symm
  · rename_i notUpper
    exact (if_neg notUpper).symm

/-- Characters are the same letter exactly if they are the same in lower case. -/
theorem sameLetter_iff
    {c other : Char} :
    SameLetter c other ↔ c.toLower = other.toLower := by
  have first : 'A'.toNat = 65 := rfl
  have last : 'Z'.toNat = 90 := rfl
  simp only [SameLetter, IsCapitalOf, ← Char.toNat_inj, toNat_toLower, first, last]
  split <;> split <;> omega

/-- Texts that are the same up to case are the same in lower case. -/
theorem sameLetters_iff
    {text other : Text} :
    SameLetters text other ↔ text.lowercase = other.lowercase := by
  have sameLetter : SameLetter = fun c other => c.toLower = other.toLower := by
    funext c other
    exact propext sameLetter_iff
  rw [← List.forall₂_eq_eq_eq, lowercase, lowercase, List.forall₂_map_left_iff,
    List.forall₂_map_right_iff, SameLetters, sameLetter]

/-- A text is what is left of it, or has the mark before that. -/
theorem eq_or_eq_cons_dropMark
    (mark : Char)
    (text : Text) :
    text = dropMark mark text ∨ text = mark :: dropMark mark text := by
  cases text with
  | nil => exact .inl rfl
  | cons c text =>
      by_cases marked : c = mark
      · exact .inr (by simp [dropMark, marked])
      · exact .inl (by simp [dropMark, marked])

/-- One mark before a text that begins with none is dropped. -/
theorem dropMark_of_head
    {mark : Char}
    {name text : Text}
    (unmarked : name.head? ≠ some mark)
    (shape : text = name ∨ text = mark :: name) :
    dropMark mark text = name := by
  rcases shape with rfl | rfl
  · cases text with
    | nil => rfl
    | cons c text =>
        have other : c ≠ mark := by
          simpa using unmarked
        simp [dropMark, other]
  · simp [dropMark]

end Text

namespace Reg

/-! ## The convention -/

/-- Names made of a letter and a running number, for registers that follow each other. -/
def numberedNames
    (letter : Char)
    (number index count : Nat) :
    List (Text × Nat) :=
  (List.range count).map fun later => (letter :: Numeral.decimal (number + later), index + later)

/-- The names that registers have by their role in calls, and the numbers of the registers. -/
def conventionalNames : List (Text × Nat) :=
  [(Text.ofString "zero", 0), (Text.ofString "at", 1)] ++
    numberedNames 'v' 0 2 2 ++ numberedNames 'a' 0 4 4 ++
    numberedNames 't' 0 8 8 ++ numberedNames 's' 0 16 8 ++
    numberedNames 't' 8 24 2 ++ numberedNames 'k' 0 26 2 ++
    [(Text.ofString "gp", 28), (Text.ofString "sp", 29), (Text.ofString "fp", 30),
      (Text.ofString "ra", 31)]

/-- Every register is printed with its conventional name, and it has no other one. -/
theorem mem_conventionalNames_iff
    {reg : Reg}
    {name : Text} :
    (name, reg.index) ∈ conventionalNames ↔ name = reg.name := by
  have listed : ∀ reg : Reg, (reg.name, reg.index) ∈ conventionalNames := by
    decide +kernel
  have only :
      ∀ reg : Reg,
        ∀ entry ∈ conventionalNames, entry.2 = reg.index → entry.1 = reg.name := by
    decide +kernel
  constructor
  · intro member
    exact only reg _ member rfl
  · rintro rfl
    exact listed reg

/--
What a register is called without a dollar sign: decimal digits that spell its number, its
conventional name, or the second name of the frame pointer, in letters of either case.
-/
inductive IsCalled (reg : Reg) : Text → Prop where
  | number
      {digits : Text}
      (spells : Numeral.Spells 10 digits reg.index) :
      IsCalled reg digits
  | name
      {conventional name : Text}
      (listed : (conventional, reg.index) ∈ conventionalNames)
      (same : Text.SameLetters name conventional) :
      IsCalled reg name
  | frame
      {name : Text}
      (same : Text.SameLetters name (Text.ofString "s8"))
      (isFrame : reg.index = 30) :
      IsCalled reg name

/-! ## Names and numbers -/

/-- A register has its own name, in any case of the letters; one of them has a second name. -/
theorem isNamed_iff
    {reg : Reg}
    {name : Text} :
    reg.IsNamed name ↔
      Text.SameLetters name reg.name ∨
        Text.SameLetters name (Text.ofString "s8") ∧ reg.index = 30 := by
  have printed : ∀ reg : Reg, Text.lowercase reg.name = reg.name := by
    decide +kernel
  have second : Text.lowercase (Text.ofString "s8") = Text.ofString "s8" := by
    decide +kernel
  have frame : ∀ reg : Reg, reg = ⟨30⟩ ↔ reg.index = 30 := by
    decide +kernel
  simp only [IsNamed, aliases, List.mem_singleton, Prod.mk.injEq, Text.sameLetters_iff, printed,
    second, frame]

theorem isCalled_of_isNamed
    {reg : Reg}
    {name : Text}
    (named : reg.IsNamed name) :
    reg.IsCalled name := by
  rcases isNamed_iff.mp named with same | ⟨same, isFrame⟩
  · exact .name (mem_conventionalNames_iff.mpr rfl) same
  · exact .frame same isFrame

/-- No number begins with a dollar sign. -/
theorem head_of_spells
    {digits : Text}
    {n : Nat}
    (spells : Numeral.Spells 10 digits n) :
    digits.head? ≠ some '$' := by
  obtain ⟨_, inBase⟩ := Token.isDecimal_iff.mp (Numeral.spells_ten_iff.mp spells).1
  intro dollar
  have digit := inBase '$' (List.mem_of_mem_head? dollar)
  exact absurd digit (by decide)

/-- The name of a register does not begin with the mark. -/
theorem head_of_isNamed
    {reg : Reg}
    {name : Text}
    (named : reg.IsNamed name) :
    name.head? ≠ some '$' := by
  obtain ⟨first, rest, rfl, letter, _⟩ := isAlphanum_of_isNamed named
  simpa using Text.ne_of_class letter (by decide)

/-! ## Lookup -/

/-- Digits lead to the register with the number that they spell, if it is not too great. -/
theorem lookup?_of_spells
    {digits text : Text}
    {n : Nat}
    (spells : Numeral.Spells 10 digits n)
    (shape : text = digits ∨ text = '$' :: digits) :
    lookup? text = ofIndex? n := by
  obtain ⟨decimal, rfl⟩ := Numeral.spells_ten_iff.mp spells
  simp [lookup?, Text.dropMark_of_head (head_of_spells spells) shape, decimal]

/-- A register is found under whatever it is called, with the mark or without. -/
theorem lookup?_of_isCalled
    {reg : Reg}
    {name text : Text}
    (called : reg.IsCalled name)
    (shape : text = name ∨ text = '$' :: name) :
    lookup? text = some reg := by
  have ofName (named : reg.IsNamed name) : lookup? text = some reg :=
    lookup?_of_dropMark named (Text.dropMark_of_head (head_of_isNamed named) shape)
  cases called with
  | number spells => rw [lookup?_of_spells spells shape, ofIndex?_index]
  | name listed same =>
      obtain rfl := mem_conventionalNames_iff.mp listed
      exact ofName (isNamed_iff.mpr (.inl same))
  | frame same isFrame => exact ofName (isNamed_iff.mpr (.inr ⟨same, isFrame⟩))

/-- The register that is found is called what is left without the mark. -/
theorem isCalled_of_lookup?
    {reg : Reg}
    {text : Text}
    (found : lookup? text = some reg) :
    reg.IsCalled (Text.dropMark '$' text) := by
  simp only [lookup?] at found
  split at found
  · rename_i decimal
    have isNumber := ofIndex?_eq_some_iff.mp found
    exact .number (Numeral.spells_ten_iff.mpr ⟨decimal, isNumber.symm⟩)
  · exact isCalled_of_isNamed (isNamed_of_ofName? found)

/-- A text finds the register that it calls, with or without a dollar sign before the name. -/
theorem lookup?_eq_some_iff
    {text : Text}
    {reg : Reg} :
    lookup? text = some reg ↔
      ∃ name, (text = name ∨ text = '$' :: name) ∧ reg.IsCalled name := by
  constructor
  · intro found
    exact ⟨_, Text.eq_or_eq_cons_dropMark '$' text, isCalled_of_lookup? found⟩
  · rintro ⟨name, shape, called⟩
    exact lookup?_of_isCalled called shape

/--
A text finds a register exactly if the register is called by it, or by what follows a dollar
sign in it. No two registers are called the same, and every register is found under its
text. Digits that spell a number beyond the registers find none, however many there are.
-/
theorem lookup_finds_what_is_called :
    (∀ text reg,
      lookup? text = some reg ↔
        ∃ name, (text = name ∨ text = '$' :: name) ∧ reg.IsCalled name) ∧
      (∀ (reg other : Reg) (name : Text),
        reg.IsCalled name → other.IsCalled name → reg = other) ∧
      (∀ reg : Reg, lookup? reg.text = some reg) ∧
      ∀ digits n,
        Numeral.Spells 10 digits n →
          32 ≤ n → lookup? digits = none ∧ lookup? ('$' :: digits) = none := by
  refine ⟨fun text reg => lookup?_eq_some_iff, ?_, lookup?_text, ?_⟩
  · intro reg other name called otherCalled
    have found := lookup?_of_isCalled called (.inl rfl)
    exact Option.some.inj (found.symm.trans (lookup?_of_isCalled otherCalled (.inl rfl)))
  · intro digits n spells large
    have nothing : ofIndex? n = none := if_neg (by omega)
    exact ⟨(lookup?_of_spells spells (.inl rfl)).trans nothing,
      (lookup?_of_spells spells (.inr rfl)).trans nothing⟩

/-- The frame pointer alone is called `S8`, and eight more than 64 bits hold calls nothing. -/
theorem second_name_is_found_and_wide_eight_is_not :
    (⟨30⟩ : Reg).IsCalled (Text.ofString "S8") ∧
      (∀ other : Reg, other.IsCalled (Text.ofString "S8") → other = ⟨30⟩) ∧
      lookup? (Text.ofString "S8") = some ⟨30⟩ ∧
      Numeral.Spells 10 (Text.ofString "0018446744073709551624") 0x10000000000000008 ∧
      lookup? (Text.ofString "0018446744073709551624") = none ∧
      lookup? (Text.ofString "$0018446744073709551624") = none := by
  have called : (⟨30⟩ : Reg).IsCalled (Text.ofString "S8") :=
    .frame (Text.sameLetters_iff.mpr (by decide +kernel)) (by decide)
  have spells :
      Numeral.Spells 10 (Text.ofString "0018446744073709551624") 0x10000000000000008 :=
    Numeral.spells_ten_iff.mpr (by decide +kernel)
  obtain ⟨finds, unique, _, beyond⟩ := lookup_finds_what_is_called
  exact ⟨called, fun other otherCalled => unique _ _ _ otherCalled called,
    (finds _ _).mpr ⟨_, .inl rfl, called⟩, spells, beyond _ _ spells (by decide)⟩

/-- One dollar sign is left out and no more, and the temporaries are no more than ten. -/
example :
    lookup? (Text.ofString "$030") = some ⟨30⟩ ∧
      lookup? (Text.ofString "$$8") = none ∧ lookup? (Text.ofString "t10") = none := by
  decide +kernel

end Reg

end TinyMips
