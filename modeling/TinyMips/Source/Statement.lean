import TinyMips.Source.Operand

namespace TinyMips

/-!
# Statements

A statement is a mnemonic and the operands after it. It keeps the text it was
written as, from the mnemonic to the last operand, without the blanks, comment
or labels around it.
-/

/-- An instruction as written, before its operands are resolved. -/
structure Statement where
  mnemonic : Text
  operands : List Operand
  text : Text
  deriving DecidableEq, Repr

namespace Statement

/-- An operand together with the separator before it. -/
abbrev Separated := Text × Operand

/-- The source text of an operand and the separator before it. -/
def separatedText (separated : Separated) : Text :=
  separated.1 ++ separated.2.text

/-- A separator and the operand after it leave less text than there was. -/
theorem rest_length_lt
    {whole rest : Text}
    {separator : Token.Cut}
    {operand : Operand}
    (separatorFound : Token.separator? whole = some separator)
    (operandFound : Operand.read? separator.rest = some (operand, rest)) :
    rest.length < whole.length := by
  obtain ⟨nonempty, splits⟩ := Token.separator?_splits separatorFound
  have inner := Operand.read?_splits operandFound
  have positive := List.length_pos_iff.2 nonempty
  rw [← splits, ← inner]
  simp only [List.length_append]
  omega

/--
The operands that follow the first one, with `earlier` ones in reverse, and the
text after them. A separator without an operand after it is not taken.
-/
def readMore (earlier : List Separated) (text : Text) : List Separated × Text :=
  match _separatorFound : Token.separator? text with
  | none => (earlier.reverse, text)
  | some separator =>
      match _operandFound : Operand.read? separator.rest with
      | none => (earlier.reverse, text)
      | some (operand, rest) => readMore ((separator.token, operand) :: earlier) rest
  termination_by text.length
  decreasing_by exact rest_length_lt (by assumption) (by assumption)

/-- The operands after a mnemonic and the blanks that follow it, and the text after them. -/
def readOperands (text : Text) : List Separated × Text :=
  let blanks := Token.run Text.isBlank text
  if blanks.token.isEmpty then
    ([], text)
  else
    match Operand.read? blanks.rest with
    | none => ([], text)
    | some (operand, rest) => readMore [(blanks.token, operand)] rest

/-- The statement at the front of a text and the text after it. -/
def read? (text : Text) : Option (Statement × Text) :=
  match Token.mnemonic? text with
  | none => none
  | some mnemonic =>
      let (separated, rest) := readOperands mnemonic.rest
      some
        ({ mnemonic := mnemonic.token
           operands := separated.map Prod.snd
           text := mnemonic.token ++ separated.flatMap separatedText },
          rest)

end Statement

end TinyMips
