import TinyMips.Text.Numeral

namespace TinyMips

/-!
# Tokens of the source language

Each reader takes one token from the front of a text and returns it with what
follows. A token is as long as its character class allows and is never cut
short to let a later part of a line match.
-/

namespace Token

/-- A token and the text that follows it. -/
structure Cut where
  token : Text
  rest : Text
  deriving Repr, DecidableEq

/-- The longest run of characters of a class. -/
def run (inClass : Char → Bool) (text : Text) : Cut :=
  ⟨text.takeWhile inClass, text.dropWhile inClass⟩

/-- The longest run of characters of a class, unless it is empty. -/
def someRun? (inClass : Char → Bool) (text : Text) : Option Cut :=
  let cut := run inClass text
  if cut.token.isEmpty then none else some cut

/-- A letter or an underscore, then letters, digits, underscores and dots. -/
def identifier? : Text → Option Cut
  | [] => none
  | c :: text =>
      if Text.isNameStart c then
        let cut := run Text.isNameRest text
        some { cut with token := c :: cut.token }
      else
        none

/-- Letters. -/
def mnemonic? (text : Text) : Option Cut :=
  someRun? Char.isAlpha text

/-- A dollar sign, then letters and digits. -/
def register? : Text → Option Cut
  | '$' :: text => (someRun? Char.isAlphanum text).map fun cut =>
      { cut with token := '$' :: cut.token }
  | _ => none

/-- Decimal digits, or `0x` and hexadecimal digits. -/
def isNumeral (word : Text) : Bool :=
  match Numeral.hexBody? word with
  | some digits => Numeral.isHexadecimal digits
  | none => Numeral.isDecimal word

/-- The sign a text begins with, if it begins with one, and the rest. -/
def sign : Text → Cut
  | '-' :: text => ⟨['-'], text⟩
  | '+' :: text => ⟨['+'], text⟩
  | text => ⟨[], text⟩

/-- An optional sign and a numeral that no further name character follows. -/
def immediate? (text : Text) : Option Cut :=
  let signed := sign text
  let word := run Text.isNameRest signed.rest
  if isNumeral word.token then
    some { word with token := signed.token ++ word.token }
  else
    none

/-- An identifier and a colon; the token is the identifier alone. -/
def label? (text : Text) : Option Cut :=
  match identifier? text with
  | some ⟨name, ':' :: rest⟩ => some ⟨name, rest⟩
  | _ => none

/-- What separates two operands: one comma with blanks around it, or blanks alone. -/
def separator? (text : Text) : Option Cut :=
  let blanks := run Text.isBlank text
  match blanks.rest with
  | ',' :: rest =>
      let more := run Text.isBlank rest
      some { more with token := blanks.token ++ ',' :: more.token }
  | _ => if blanks.token.isEmpty then none else some blanks

/-- The text after the blanks, and the comment if one follows, at its front. -/
def skip (line : Text) : Text :=
  match line.dropWhile Text.isBlank with
  | '#' :: _ => []
  | rest => rest

/-! ## Nothing is lost -/

/-- A token and the text after it make up the text they were cut from. -/
def Cut.Splits (cut : Cut) (text : Text) : Prop :=
  cut.token ++ cut.rest = text

/-- A run and the text after it make up the text. -/
theorem run_splits (inClass : Char → Bool) (text : Text) :
    (run inClass text).Splits text :=
  List.takeWhile_append_dropWhile

/-- A run that is there and the text after it make up the text. -/
theorem someRun?_splits
    {inClass : Char → Bool}
    {text : Text}
    {cut : Cut}
    (found : someRun? inClass text = some cut) :
    cut.Splits text := by
  simp only [someRun?, Option.ite_none_left_eq_some, Option.some.injEq] at found
  exact found.2 ▸ run_splits inClass text

/-- An identifier and the text after it make up the text. -/
theorem identifier?_splits
    {text : Text}
    {cut : Cut}
    (found : identifier? text = some cut) :
    cut.Splits text := by
  cases text with
  | nil => simp [identifier?] at found
  | cons c text =>
      simp only [identifier?, Option.ite_none_right_eq_some, Option.some.injEq] at found
      rw [← found.2]
      exact congrArg (c :: ·) (run_splits Text.isNameRest text)

/-- A register token and the text after it make up the text. -/
theorem register?_splits
    {text : Text}
    {cut : Cut}
    (found : register? text = some cut) :
    cut.Splits text := by
  unfold register? at found
  split at found
  · obtain ⟨name, nameFound, rfl⟩ := Option.map_eq_some_iff.1 found
    exact congrArg ('$' :: ·) (someRun?_splits nameFound)
  · simp at found

/-- A sign and the text after it make up the text. -/
theorem sign_splits (text : Text) : (sign text).Splits text := by
  unfold sign
  split <;> simp [Cut.Splits]

/-- An immediate and the text after it make up the text. -/
theorem immediate?_splits
    {text : Text}
    {cut : Cut}
    (found : immediate? text = some cut) :
    cut.Splits text := by
  simp only [immediate?, Option.ite_none_right_eq_some, Option.some.injEq] at found
  rw [← found.2]
  have signed := sign_splits text
  have word := run_splits Text.isNameRest (sign text).rest
  simp only [Cut.Splits] at signed word ⊢
  rw [List.append_assoc, word, signed]

/-- A separator is not empty, and it and the text after it make up the text. -/
theorem separator?_splits
    {text : Text}
    {cut : Cut}
    (found : separator? text = some cut) :
    cut.token ≠ [] ∧ cut.Splits text := by
  have blanks := run_splits Text.isBlank text
  simp only [separator?] at found
  split at found
  · rename_i rest comma
    have more := run_splits Text.isBlank rest
    obtain rfl := Option.some.inj found
    simp only [Cut.Splits] at blanks more ⊢
    rw [comma] at blanks
    refine ⟨by simp, ?_⟩
    rw [List.append_assoc, List.cons_append, more, blanks]
  · simp only [Option.ite_none_left_eq_some, Option.some.injEq] at found
    obtain ⟨nonempty, rfl⟩ := found
    exact ⟨by simpa using nonempty, blanks⟩

end Token

end TinyMips
