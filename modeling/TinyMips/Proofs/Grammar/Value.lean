import TinyMips.Proofs.Grammar.Token
import TinyMips.Proofs.Register.Name
import TinyMips.Source.Slot

namespace TinyMips

/-!
# What registers and integers stand for

A register can be written by its number or by a name, and an integer in two bases, with
and without a sign and with any zeros in front. What is looked up is the register or the
integer itself, so all spellings of one lead to the same result.
-/

namespace Reg

open Grammar

/-- A name of a register, without regard to case. -/
def IsNamed (reg : Reg) (name : Text) : Prop :=
  Text.lowercase name = reg.name ∨ (Text.lowercase name, reg) ∈ aliases

/-- The number or a name of a register after a dollar sign. -/
inductive IsMarked (reg : Reg) : Text → Prop where
  | number
      {digits : Text}
      (nonempty : digits ≠ [])
      (inBase : Only Char.isDigit digits)
      (isNumber : Numeral.value 10 digits = reg.index) :
      IsMarked reg ('$' :: digits)
  | name
      {name : Text}
      (named : reg.IsNamed name) :
      IsMarked reg ('$' :: name)

/-- A spelling of a register: a dollar sign and its number or a name, or a bare name. -/
def IsSpelled (reg : Reg) (text : Text) : Prop :=
  reg.IsMarked text ∨ reg.IsNamed text

/-! ## Spellings of registers are in the language -/

/-- Names of registers are letters and digits, with a letter first. -/
theorem isAlphanum_of_isNamed
    {reg : Reg}
    {name : Text}
    (named : reg.IsNamed name) :
    ∃ first rest,
      name = first :: rest ∧ first.isAlpha = true ∧ Only Char.isAlphanum (first :: rest) := by
  have ofPrinted :
      ∀ reg : Reg, reg.name.head?.any Char.isAlpha = true ∧ reg.name.all Char.isAlphanum = true := by
    decide +kernel
  have ofAlias :
      ∀ entry ∈ aliases,
        entry.1.head?.any Char.isAlpha = true ∧ entry.1.all Char.isAlphanum = true := by
    decide +kernel
  have lower :
      (Text.lowercase name).head?.any Char.isAlpha = true ∧
        (Text.lowercase name).all Char.isAlphanum = true := by
    rcases named with printed | second
    · rw [printed]
      exact ofPrinted reg
    · exact ofAlias _ second
  obtain ⟨starts, inside⟩ := lower
  cases name with
  | nil => simp [Text.lowercase] at starts
  | cons first rest =>
      refine ⟨first, rest, rfl, Text.mem_class_of_toLower (fun _ letter => letter) starts, ?_⟩
      intro c member
      apply Text.mem_class_of_toLower (fun _ letter => by simp [Char.isAlphanum, letter])
      exact List.all_eq_true.mp inside _ (List.mem_map_of_mem member)

/-- The names of registers are identifiers. -/
theorem identifier_of_isNamed
    {reg : Reg}
    {name : Text}
    (named : reg.IsNamed name) :
    Identifier name := by
  obtain ⟨first, rest, rfl, letter, alphanumeric⟩ := isAlphanum_of_isNamed named
  refine .mk (by simp [Text.isNameStart, letter]) fun c member => ?_
  simp [Text.isNameRest, alphanumeric c (by simp [member])]

/-- A name behind the mark of registers has the form of one. -/
theorem register_of_isMarked
    {reg : Reg}
    {text : Text}
    (marked : reg.IsMarked text) :
    Register text := by
  cases marked with
  | number nonempty inBase _ =>
      exact .mk nonempty fun c member => by simp [Char.isAlphanum, inBase c member]
  | name named =>
      obtain ⟨first, rest, rfl, _, alphanumeric⟩ := isAlphanum_of_isNamed named
      exact .mk (by simp) alphanumeric

/-! ## Spellings of registers are looked up -/

/-- A register is found again under its number. -/
theorem ofIndex?_index :
    ∀ reg : Reg, ofIndex? reg.index = some reg := by
  decide +kernel

/-- A name in lower case is no number and leads to its register. -/
theorem ofName?_of_isNamed
    {reg : Reg}
    {name : Text}
    (named : reg.IsNamed name) :
    Numeral.isDecimal (Text.lowercase name) = false ∧
      ofName? (Text.lowercase name) = some reg := by
  have ofPrinted :
      ∀ reg : Reg,
        Numeral.isDecimal reg.name = false ∧ ofName? reg.name = some reg := by
    decide +kernel
  have ofAlias :
      ∀ entry ∈ aliases,
        Numeral.isDecimal entry.1 = false ∧ ofName? entry.1 = some entry.2 := by
    decide +kernel
  rcases named with printed | second
  · rw [printed]
    exact ofPrinted reg
  · exact ofAlias _ second

/-- Decimal digits have no capital letters. -/
theorem lowercase_of_isDecimal
    {digits : Text}
    (decimal : Numeral.isDecimal digits = true) :
    Text.lowercase digits = digits := by
  obtain ⟨_, inBase⟩ := Token.isDecimal_iff.mp decimal
  have kept : ∀ c ∈ digits, c.toLower = c := by
    intro c member
    obtain ⟨_, upper⟩ := Bool.and_eq_true_iff.mp (inBase c member)
    have below : c.val ≤ 57 := of_decide_eq_true upper
    unfold Char.toLower
    exact dif_neg fun letter => absurd (UInt32.le_trans letter.1 below) (by decide)
  exact (List.map_congr_left kept).trans (List.map_id digits)

/-- A register is found under each of its names, with the mark or without. -/
theorem lookup?_of_dropMark
    {reg : Reg}
    {name text : Text}
    (named : reg.IsNamed name)
    (bare : Text.dropMark '$' text = name) :
    lookup? text = some reg := by
  obtain ⟨noNumber, found⟩ := ofName?_of_isNamed named
  have notDecimal : Numeral.isDecimal name = false := by
    rw [Bool.eq_false_iff]
    intro decimal
    rw [lowercase_of_isDecimal decimal, decimal] at noNumber
    simp at noNumber
  simp [lookup?, bare, notDecimal, found]

/-- A register is found under every spelling of it. -/
theorem lookup?_of_isSpelled
    {reg : Reg}
    {text : Text}
    (spelled : reg.IsSpelled text) :
    lookup? text = some reg := by
  rcases spelled with marked | named
  · cases marked with
    | number nonempty inBase isNumber =>
        have decimal := Token.isDecimal_iff.mpr ⟨nonempty, inBase⟩
        simp [lookup?, Text.dropMark, decimal, isNumber, ofIndex?_index]
    | name named =>
        exact lookup?_of_dropMark named (by simp [Text.dropMark])
  · obtain ⟨first, rest, rfl, letter, _⟩ := isAlphanum_of_isNamed named
    have noDollar : first ≠ '$' := Text.ne_of_class letter (by decide)
    exact lookup?_of_dropMark named (by simp [Text.dropMark, noDollar])

/-! ## What is looked up is spelled -/

/-- The register with a number is the one of that number, if there is one. -/
theorem ofIndex?_eq_some_iff
    {index : Nat}
    {reg : Reg} :
    ofIndex? index = some reg ↔ reg.index = index := by
  constructor
  · intro found
    obtain ⟨bound, same⟩ := Option.ite_none_right_eq_some.mp found
    obtain rfl := Option.some.inj same
    exact Nat.mod_eq_of_lt bound
  · rintro rfl
    exact ofIndex?_index reg

/-- What is found under a lower-case name has it as its own name or as another one. -/
theorem isNamed_of_ofName?
    {reg : Reg}
    {name : Text}
    (found : ofName? (Text.lowercase name) = some reg) :
    reg.IsNamed name := by
  unfold ofName? at found
  split at found
  · rename_i index placed
    obtain ⟨inside, same⟩ := List.findIdx?_eq_some_iff_getElem.mp placed
    refine .inl ?_
    have atIndex : names.getD index [] = names[index] := by
      simp [List.getD_eq_getElem?_getD, inside]
    rw [Reg.name, ofIndex?_eq_some_iff.mp found, atIndex]
    exact (of_decide_eq_true same.1).symm
  · obtain ⟨before, after, shape, _⟩ := List.lookup_eq_some_iff.mp found
    exact .inr (by simp [shape])

/-- A spelling that is a register token has the dollar sign. -/
theorem IsSpelled.isMarked
    {reg : Reg}
    {text : Text}
    (spelled : reg.IsSpelled text)
    (isRegister : Register text) :
    reg.IsMarked text := by
  rcases spelled with marked | named
  · exact marked
  · obtain ⟨first, rest, rfl, letter, _⟩ := isAlphanum_of_isNamed named
    cases isRegister with
    | mk => exact absurd rfl (Text.ne_of_class letter (by decide))

/-- A spelling that is an identifier is a name. -/
theorem IsSpelled.isNamed
    {reg : Reg}
    {text : Text}
    (spelled : reg.IsSpelled text)
    (isIdentifier : Identifier text) :
    reg.IsNamed text := by
  rcases spelled with marked | named
  · cases register_of_isMarked marked with
    | mk =>
        cases isIdentifier with
        | mk starts => exact absurd rfl (Text.ne_of_class starts (by decide))
  · exact named

/-- A register token or an identifier leads to a register only if it is a spelling of it. -/
theorem isSpelled_of_lookup?
    {reg : Reg}
    {text : Text}
    (isToken : Register text ∨ Identifier text)
    (found : lookup? text = some reg) :
    reg.IsSpelled text := by
  rcases isToken with marked | bare
  · cases marked with
    | @mk name nonempty alphanumeric =>
        simp only [lookup?, Text.dropMark, ↓reduceIte] at found
        split at found
        · rename_i decimal
          obtain ⟨_, inBase⟩ := Token.isDecimal_iff.mp decimal
          exact .inl (.number nonempty inBase (ofIndex?_eq_some_iff.mp found).symm)
        · exact .inl (.name (isNamed_of_ofName? found))
  · cases bare with
    | @mk first rest starts goesOn =>
        have noDollar : first ≠ '$' := Text.ne_of_class starts (by decide)
        have noDigit : first.isDigit = false := Text.isDigit_of_isNameStart starts
        simp only [lookup?, Text.dropMark, noDollar, ↓reduceIte, Numeral.isDecimal,
          List.all_cons, noDigit, Bool.false_and, Bool.and_false] at found
        exact .inr (isNamed_of_ofName? found)

end Reg

namespace Numeral

open Grammar

/-- Digits in base ten, or in base sixteen after `0x`, denote a natural number. -/
inductive Denotes : Text → Nat → Prop where
  | decimal
      {digits : Text}
      (nonempty : digits ≠ [])
      (inBase : Only Char.isDigit digits) :
      Denotes digits (value 10 digits)
  | hexadecimal
      {mark : Char}
      {digits : Text}
      (marked : mark = 'x' ∨ mark = 'X')
      (nonempty : digits ≠ [])
      (inBase : Only Text.isHexDigit digits) :
      Denotes ('0' :: mark :: digits) (value 16 digits)

/-- What denotes a number has the form of a natural number. -/
theorem Denotes.natural
    {text : Text}
    {n : Nat}
    (denotes : Denotes text n) :
    Natural text := by
  cases denotes with
  | decimal nonempty inBase => exact .decimal nonempty inBase
  | hexadecimal marked nonempty inBase => exact .hexadecimal marked nonempty inBase

end Numeral

namespace Literal

open Grammar

/-- An integer of the language denotes a number, with an optional sign. -/
inductive Denotes : Text → Int → Prop where
  | unsigned
      {text : Text}
      {n : Nat}
      (natural : Numeral.Denotes text n) :
      Denotes text n
  | positive
      {text : Text}
      {n : Nat}
      (natural : Numeral.Denotes text n) :
      Denotes ('+' :: text) n
  | negative
      {text : Text}
      {n : Nat}
      (natural : Numeral.Denotes text n) :
      Denotes ('-' :: text) (-n)

/-- Every immediate denotes an integer. -/
theorem exists_denotes
    {text : Text}
    (isImmediate : Immediate text) :
    ∃ value, Denotes text value := by
  have ofNatural {text : Text} (natural : Natural text) : ∃ n, Numeral.Denotes text n := by
    cases natural with
    | decimal nonempty inBase => exact ⟨_, .decimal nonempty inBase⟩
    | hexadecimal marked nonempty inBase => exact ⟨_, .hexadecimal marked nonempty inBase⟩
  cases isImmediate with
  | unsigned natural =>
      obtain ⟨n, denotes⟩ := ofNatural natural
      exact ⟨n, .unsigned denotes⟩
  | signed isSign natural =>
      obtain ⟨n, denotes⟩ := ofNatural natural
      rcases isSign with rfl | rfl
      · exact ⟨-n, .negative denotes⟩
      · exact ⟨n, .positive denotes⟩

/-- What denotes an integer has the form of an immediate. -/
theorem immediate_of_denotes
    {text : Text}
    {value : Int}
    (denotes : Denotes text value) :
    Immediate text := by
  cases denotes with
  | unsigned natural => exact .unsigned natural.natural
  | positive natural => exact .signed (.inr rfl) natural.natural
  | negative natural => exact .signed (.inl rfl) natural.natural

/-- Digits without a sign have their positional value, if it is in range. -/
theorem signedDigits?_of_digits
    {base : Nat}
    {isDigit : Char → Bool}
    {digits : Text}
    (nonempty : digits ≠ [])
    (inBase : Only isDigit digits)
    (noMinus : isDigit '-' = false)
    (noPlus : isDigit '+' = false) :
    signedDigits? base isDigit digits = inRange? (Numeral.value base digits) := by
  obtain ⟨c, rest, rfl⟩ := List.exists_cons_of_ne_nil nonempty
  have notMinus : c ≠ '-' := Text.ne_of_class (inBase c (by simp)) noMinus
  have notPlus : c ≠ '+' := Text.ne_of_class (inBase c (by simp)) noPlus
  have all : (c :: rest).all isDigit = true := List.all_eq_true.mpr inBase
  simp [signedDigits?, notMinus, notPlus, all]

/-- A literal without its sign is read as the number that it denotes, if that is in range. -/
theorem magnitude?_of_denotes
    {text : Text}
    {n : Nat}
    (denotes : Numeral.Denotes text n) :
    magnitude? text = inRange? n := by
  cases denotes with
  | decimal nonempty inBase =>
      have noMark : ∀ c ∈ text, c ≠ 'x' ∧ c ≠ 'X' := by
        intro c member
        exact ⟨Text.ne_of_class (inBase c member) (by decide),
          Text.ne_of_class (inBase c member) (by decide)⟩
      rw [magnitude?, Numeral.hexBody?_of_noMark noMark]
      exact signedDigits?_of_digits nonempty inBase (by decide) (by decide)
  | @hexadecimal mark digits marked nonempty inBase =>
      have body : Numeral.hexBody? ('0' :: mark :: digits) = some digits :=
        Token.hexBody?_eq_some_iff.mpr ⟨mark, marked, rfl⟩
      rw [magnitude?, body]
      exact signedDigits?_of_digits nonempty inBase (by decide) (by decide)

/-- The value of an integer is the number it denotes, if its magnitude fits 64 bits. -/
theorem value?_of_denotes
    {text : Text}
    {value : Int}
    (denotes : Denotes text value) :
    value? text = if value.natAbs ≤ maximum then some value else none := by
  have inRange (n : Nat) :
      inRange? n = if (n : Int) ≤ maximum then some (n : Int) else none := by
    have low : minimum ≤ (n : Int) := by
      simp only [minimum]
      omega
    simp [inRange?, low]
  cases denotes with
  | unsigned natural =>
      obtain ⟨c, rest, rfl, digit⟩ := Token.natural_head natural.natural
      have notMinus : c ≠ '-' := Text.ne_of_class digit (by decide)
      have notPlus : c ≠ '+' := Text.ne_of_class digit (by decide)
      rw [value?]
      · simpa using (magnitude?_of_denotes natural).trans (inRange _)
      · simp [notMinus]
      · simp [notPlus]
  | positive natural =>
      rw [value?, magnitude?_of_denotes natural, inRange, Int.natAbs_natCast]
  | @negative text n natural =>
      rw [value?, magnitude?_of_denotes natural, inRange, Int.natAbs_neg, Int.natAbs_natCast]
      split
      · rename_i fits
        simp only [maximum] at fits
        -- Within the bound the negation does not wrap.
        rw [Option.map_some, Int.bmod_eq_of_le (by omega) (by omega)]
      · rfl

end Literal

end TinyMips
