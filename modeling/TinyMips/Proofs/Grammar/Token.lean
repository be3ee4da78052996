import TinyMips.Proofs.Grammar.Basic
import TinyMips.Proofs.Source.Token
import TinyMips.Proofs.Text.Numeral

namespace TinyMips

/-!
# Tokens of the language

A token reader only finds tokens of the language, and it finds every one that the
text after it cannot lengthen.
-/

/-- Blanks are spaces and tabs. -/
theorem Text.isBlank_eq_false_iff
    {c : Char} :
    isBlank c = false ↔ c ≠ ' ' ∧ c ≠ '\t' := by
  simp [isBlank]

/-- A character of a class differs from one outside the class. -/
theorem Text.ne_of_class
    {inClass : Char → Bool}
    {c other : Char}
    (inside : inClass c = true)
    (outside : inClass other = false) :
    c ≠ other := by
  rintro rfl
  simp [inside] at outside

/-- A class without space and tab has no blanks in it. -/
theorem Text.isBlank_of_class
    {inClass : Char → Bool}
    {c : Char}
    (inside : inClass c = true)
    (noSpace : inClass ' ' = false)
    (noTab : inClass '\t' = false) :
    isBlank c = false :=
  isBlank_eq_false_iff.mpr ⟨ne_of_class inside noSpace, ne_of_class inside noTab⟩

/-- The letters lie in two ranges of characters. -/
theorem Text.isAlpha_iff
    {c : Char} :
    c.isAlpha = true ↔ 65 ≤ c.toNat ∧ c.toNat ≤ 90 ∨ 97 ≤ c.toNat ∧ c.toNat ≤ 122 := by
  have upper : c.isUpper = true ↔ 65 ≤ c.toNat ∧ c.toNat ≤ 90 :=
    decide_eq_true_iff
  have lower : c.isLower = true ↔ 97 ≤ c.toNat ∧ c.toNat ≤ 122 :=
    Bool.and_eq_true_iff.trans (and_congr decide_eq_true_iff decide_eq_true_iff)
  exact Bool.or_eq_true_iff.trans (or_congr upper lower)

/-- A class with all letters in it has a character if it has its lower case. -/
theorem Text.mem_class_of_toLower
    {inClass : Char → Bool}
    (letters : ∀ c, c.isAlpha = true → inClass c = true)
    {c : Char}
    (inside : inClass c.toLower = true) :
    inClass c = true := by
  unfold Char.toLower at inside
  split at inside
  · rename_i upper
    exact letters c (isAlpha_iff.mpr (.inl upper))
  · exact inside

/-- No name begins with a digit. -/
theorem Text.isDigit_of_isNameStart
    {c : Char}
    (starts : isNameStart c = true) :
    c.isDigit = false := by
  rcases Bool.or_eq_true_iff.mp starts with letter | underscore
  · have bounds := isAlpha_iff.mp letter
    rw [Bool.eq_false_iff]
    intro digit
    obtain ⟨_, upper⟩ := Bool.and_eq_true_iff.mp digit
    have below : c.toNat ≤ 57 := of_decide_eq_true upper
    omega
  · obtain rfl := of_decide_eq_true underscore
    decide

namespace Token

open Grammar

/-- A run has only characters of its class. -/
theorem only_run
    (inClass : Char → Bool)
    (text : Text) :
    Only inClass (run inClass text).token := by
  intro c member
  exact List.all_eq_true.mp List.all_takeWhile c member

/-- A run that must not be empty is not empty, and has only characters of its class. -/
theorem only_of_someRun?
    {inClass : Char → Bool}
    {text : Text}
    {cut : Cut}
    (found : someRun? inClass text = some cut) :
    cut.token ≠ [] ∧ Only inClass cut.token := by
  simp only [someRun?, Option.ite_none_left_eq_some, Option.some.injEq] at found
  obtain ⟨nonempty, rfl⟩ := found
  exact ⟨by simpa using nonempty, only_run inClass text⟩

/-! ## Identifiers and registers -/

/-- What is read as an identifier is one. -/
theorem identifier_of_identifier?
    {text : Text}
    {cut : Cut}
    (found : identifier? text = some cut) :
    Identifier cut.token := by
  cases text with
  | nil =>
      simp [identifier?] at found
  | cons c text =>
      simp only [identifier?, Option.ite_none_right_eq_some, Option.some.injEq] at found
      obtain ⟨starts, rfl⟩ := found
      exact .mk starts (only_run Text.isNameRest text)

/-- An identifier is read whole where no name goes on. -/
theorem identifier?_of_identifier
    {name rest : Text}
    (isIdentifier : Identifier name)
    (stops : Stops Text.isNameRest rest) :
    identifier? (name ++ rest) = some ⟨name, rest⟩ := by
  obtain ⟨starts, goesOn⟩ := isIdentifier
  exact identifier?_append starts goesOn stops

theorem register_of_register?
    {text : Text}
    {cut : Cut}
    (found : register? text = some cut) :
    Register cut.token := by
  unfold register? at found
  split at found
  · obtain ⟨name, nameFound, rfl⟩ := Option.map_eq_some_iff.mp found
    obtain ⟨nonempty, alphanumeric⟩ := only_of_someRun? nameFound
    exact .mk nonempty alphanumeric
  · simp at found

theorem register?_of_register
    {name rest : Text}
    (isRegister : Register name)
    (stops : Stops Char.isAlphanum rest) :
    register? (name ++ rest) = some ⟨name, rest⟩ := by
  obtain ⟨nonempty, alphanumeric⟩ := isRegister
  exact register?_append nonempty alphanumeric stops

/-! ## Integers -/

/-- Decimal numerals are digits, and at least one. -/
theorem isDecimal_iff
    {digits : Text} :
    Numeral.isDecimal digits = true ↔ digits ≠ [] ∧ Only Char.isDigit digits := by
  simp [Numeral.isDecimal, Only]

theorem isHexadecimal_iff
    {digits : Text} :
    Numeral.isHexadecimal digits = true ↔ digits ≠ [] ∧ Only Text.isHexDigit digits := by
  simp [Numeral.isHexadecimal, Only]

/-- The mark of base sixteen is a zero with an `x` behind it, small or capital. -/
theorem hexBody?_eq_some_iff
    {word digits : Text} :
    Numeral.hexBody? word = some digits ↔
      ∃ mark, (mark = 'x' ∨ mark = 'X') ∧ word = '0' :: mark :: digits := by
  constructor
  · intro found
    unfold Numeral.hexBody? at found
    split at found
    · obtain rfl := Option.some.inj found
      exact ⟨'x', .inl rfl, rfl⟩
    · obtain rfl := Option.some.inj found
      exact ⟨'X', .inr rfl, rfl⟩
    · simp at found
  · rintro ⟨mark, rfl | rfl, rfl⟩
    · rfl
    · rfl

/-- The word of an integer is a natural number of the language exactly if it is a numeral. -/
theorem isNumeral_iff
    {word : Text} :
    isNumeral word = true ↔ Natural word := by
  constructor
  · intro numeral
    unfold isNumeral at numeral
    split at numeral
    · rename_i digits found
      obtain ⟨mark, marked, rfl⟩ := hexBody?_eq_some_iff.mp found
      obtain ⟨nonempty, inBase⟩ := isHexadecimal_iff.mp numeral
      exact .hexadecimal marked nonempty inBase
    · obtain ⟨nonempty, inBase⟩ := isDecimal_iff.mp numeral
      exact .decimal nonempty inBase
  · intro natural
    cases natural with
    | decimal nonempty inBase =>
        have noMark : ∀ c ∈ word, c ≠ 'x' ∧ c ≠ 'X' := by
          intro c member
          exact ⟨Text.ne_of_class (inBase c member) (by decide),
            Text.ne_of_class (inBase c member) (by decide)⟩
        simpa only [isNumeral, Numeral.hexBody?_of_noMark noMark] using
          isDecimal_iff.mpr ⟨nonempty, inBase⟩
    | @hexadecimal mark digits marked nonempty inBase =>
        have body : Numeral.hexBody? ('0' :: mark :: digits) = some digits :=
          hexBody?_eq_some_iff.mpr ⟨mark, marked, rfl⟩
        simpa only [isNumeral, body] using isHexadecimal_iff.mpr ⟨nonempty, inBase⟩

/-- Hexadecimal digits may go on in a name. -/
theorem isNameRest_of_isHexDigit
    {c : Char}
    (digit : Text.isHexDigit c = true) :
    Text.isNameRest c = true := by
  simp only [Text.isHexDigit, Bool.or_eq_true, Bool.and_eq_true, decide_eq_true_eq,
    Char.le_def, UInt32.le_iff_toNat_le] at digit
  have ofLetter
      (letter : 65 ≤ c.toNat ∧ c.toNat ≤ 90 ∨ 97 ≤ c.toNat ∧ c.toNat ≤ 122) :
      Text.isNameRest c = true := by
    simp [Text.isNameRest, Char.isAlphanum, Text.isAlpha_iff.mpr letter]
  rcases digit with (decimal | lower) | upper
  · simp [Text.isNameRest, Char.isAlphanum, decimal]
  · exact ofLetter (.inr ⟨lower.1, Nat.le_trans lower.2 (by decide)⟩)
  · exact ofLetter (.inl ⟨upper.1, Nat.le_trans upper.2 (by decide)⟩)

/-- Every character of a natural number may go on in a name. -/
theorem onlyNameRest_of_natural
    {word : Text}
    (natural : Natural word) :
    Only Text.isNameRest word := by
  cases natural with
  | decimal nonempty inBase =>
      intro c member
      simp [Text.isNameRest, Char.isAlphanum, inBase c member]
  | hexadecimal marked nonempty inBase =>
      intro c member
      rcases List.mem_cons.mp member with rfl | later
      · decide
      · rcases List.mem_cons.mp later with rfl | inDigits
        · rcases marked with rfl | rfl <;> decide
        · exact isNameRest_of_isHexDigit (inBase c inDigits)

/-- A natural number begins with a digit. -/
theorem natural_head
    {word : Text}
    (natural : Natural word) :
    ∃ c rest, word = c :: rest ∧ c.isDigit = true := by
  cases natural with
  | decimal nonempty inBase =>
      obtain ⟨c, rest, rfl⟩ := List.exists_cons_of_ne_nil nonempty
      exact ⟨c, rest, rfl, inBase c (by simp)⟩
  | hexadecimal marked nonempty inBase =>
      exact ⟨'0', _, rfl, by decide⟩

/-- A natural number has no sign. -/
theorem sign_of_natural
    {word rest : Text}
    (natural : Natural word) :
    sign (word ++ rest) = ⟨[], word ++ rest⟩ := by
  obtain ⟨c, digits, rfl, digit⟩ := natural_head natural
  have notMinus : c ≠ '-' := Text.ne_of_class digit (by decide)
  have notPlus : c ≠ '+' := Text.ne_of_class digit (by decide)
  rw [List.cons_append, sign]
  · intro other shape
    exact notMinus (List.cons.inj shape).1
  · intro other shape
    exact notPlus (List.cons.inj shape).1

/-- A sign is one character, or none. -/
theorem sign_token (text : Text) :
    (sign text).token = [] ∨
      ∃ mark, (mark = '-' ∨ mark = '+') ∧ (sign text).token = [mark] := by
  unfold sign
  split
  · exact .inr ⟨'-', .inl rfl, rfl⟩
  · exact .inr ⟨'+', .inr rfl, rfl⟩
  · exact .inl rfl

theorem immediate_of_immediate?
    {text : Text}
    {cut : Cut}
    (found : immediate? text = some cut) :
    Immediate cut.token := by
  simp only [immediate?, Option.ite_none_right_eq_some, Option.some.injEq] at found
  obtain ⟨numeral, rfl⟩ := found
  have natural := isNumeral_iff.mp numeral
  rcases sign_token text with noSign | ⟨mark, isSign, signed⟩
  · rw [noSign]
    exact .unsigned natural
  · rw [signed]
    exact .signed isSign natural

theorem immediate?_of_immediate
    {text rest : Text}
    (isImmediate : Immediate text)
    (stops : Stops Text.isNameRest rest) :
    immediate? (text ++ rest) = some ⟨text, rest⟩ := by
  cases isImmediate with
  | unsigned natural =>
      simp [immediate?, sign_of_natural natural,
        run_append (onlyNameRest_of_natural natural) stops, isNumeral_iff.mpr natural]
  | @signed mark word isSign natural =>
      have signed : sign (mark :: (word ++ rest)) = ⟨[mark], word ++ rest⟩ := by
        rcases isSign with rfl | rfl <;> rfl
      rw [List.cons_append, immediate?, signed]
      simp [run_append (onlyNameRest_of_natural natural) stops, isNumeral_iff.mpr natural]

/-! ## Between operands -/

theorem separator_of_separator?
    {text : Text}
    {cut : Cut}
    (found : separator? text = some cut) :
    Separator cut.token := by
  simp only [separator?] at found
  split at found
  · obtain rfl := Option.some.inj found
    exact .comma (only_run Text.isBlank _) (only_run Text.isBlank _)
  · simp only [Option.ite_none_left_eq_some, Option.some.injEq] at found
    obtain ⟨nonempty, rfl⟩ := found
    exact .blanks (by simpa using nonempty) (only_run Text.isBlank _)

/-- A separator is found whole where something else than a blank or a comma follows it. -/
theorem separator?_of_separator
    {text rest : Text}
    (isSeparator : Separator text)
    (notBlank : Stops Text.isBlank rest)
    (noComma : ∀ more, rest ≠ ',' :: more) :
    separator? (text ++ rest) = some ⟨text, rest⟩ := by
  cases isSeparator with
  | @comma before after blanksBefore blanksAfter =>
      have first :
          run Text.isBlank (before ++ ',' :: (after ++ rest)) =
            ⟨before, ',' :: (after ++ rest)⟩ :=
        run_append blanksBefore (stops_cons_iff.mpr (by decide))
      rw [List.append_assoc, List.cons_append, separator?, first]
      simp [run_append blanksAfter notBlank]
  | blanks nonempty blanks =>
      rw [separator?, run_append blanks notBlank]
      split
      · rename_i more comma
        exact absurd comma (noComma more)
      · simp [nonempty]

end Token

end TinyMips
