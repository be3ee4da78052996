import TinyMips.Source.Content

namespace TinyMips.Grammar

/-!
# The language of a line

Which texts are lines of the source language, and what each of them says. The rules
only put texts together: none is tried before another, none has to reach as far as it
can, and what follows a part plays no role in whether the part is one.
-/

/-- Characters of one class, maybe none. -/
def Only (inClass : Char → Bool) (text : Text) : Prop :=
  ∀ c ∈ text, inClass c = true

/-- Spaces and tabs, maybe none. -/
def Blanks (text : Text) : Prop :=
  Only Text.isBlank text

/-- A letter or an underscore, then letters, digits, underscores and dots. -/
inductive Identifier : Text → Prop where
  | mk
      {first : Char}
      {rest : Text}
      (starts : Text.isNameStart first = true)
      (goesOn : Only Text.isNameRest rest) :
      Identifier (first :: rest)

/-- A dollar sign, then letters and digits. -/
inductive Register : Text → Prop where
  | mk
      {name : Text}
      (nonempty : name ≠ [])
      (alphanumeric : Only Char.isAlphanum name) :
      Register ('$' :: name)

/-- Decimal digits, or `0x` and hexadecimal digits. -/
inductive Natural : Text → Prop where
  | decimal
      {digits : Text}
      (nonempty : digits ≠ [])
      (inBase : Only Char.isDigit digits) :
      Natural digits
  | hexadecimal
      {mark : Char}
      {digits : Text}
      (marked : mark = 'x' ∨ mark = 'X')
      (nonempty : digits ≠ [])
      (inBase : Only Text.isHexDigit digits) :
      Natural ('0' :: mark :: digits)

/-- A natural number with an optional sign. -/
inductive Immediate : Text → Prop where
  | unsigned
      {text : Text}
      (natural : Natural text) :
      Immediate text
  | signed
      {mark : Char}
      {text : Text}
      (isSign : mark = '-' ∨ mark = '+')
      (natural : Natural text) :
      Immediate (mark :: text)

/-- A text as an operand of its kind. -/
inductive IsOperand : Text → Operand → Prop where
  | register
      {text : Text}
      (isRegister : Register text) :
      IsOperand text (.register text)
  | immediate
      {text : Text}
      (isImmediate : Immediate text) :
      IsOperand text (.immediate text)
  | memory
      {offset? : Option Text}
      {base : Text}
      (isOffset : ∀ offset ∈ offset?, Immediate offset)
      (isBase : Register base ∨ Identifier base) :
      IsOperand (offset?.getD [] ++ '(' :: (base ++ [')'])) (.memory offset? base)
  | symbol
      {text : Text}
      (isIdentifier : Identifier text) :
      IsOperand text (.symbol text)

/-- One comma with blanks around it, or blanks alone. -/
inductive Separator : Text → Prop where
  | comma
      {before after : Text}
      (blanksBefore : Blanks before)
      (blanksAfter : Blanks after) :
      Separator (before ++ ',' :: after)
  | blanks
      {text : Text}
      (nonempty : text ≠ [])
      (blanks : Blanks text) :
      Separator text

/-- Operands with separators between them. -/
inductive AreOperands : Text → List Operand → Prop where
  | one
      {text : Text}
      {operand : Operand}
      (isOperand : IsOperand text operand) :
      AreOperands text [operand]
  | more
      {text separator rest : Text}
      {operand : Operand}
      {others : List Operand}
      (isOperand : IsOperand text operand)
      (separated : Separator separator)
      (areOperands : AreOperands rest others) :
      AreOperands (text ++ separator ++ rest) (operand :: others)

/-- Letters and, after blanks, operands, if there are any. -/
inductive IsInstruction : Text → Statement → Prop where
  | bare
      {mnemonic : Text}
      (nonempty : mnemonic ≠ [])
      (letters : Only Char.isAlpha mnemonic) :
      IsInstruction mnemonic ⟨mnemonic, [], mnemonic⟩
  | applied
      {mnemonic blanks text : Text}
      {operands : List Operand}
      (nonempty : mnemonic ≠ [])
      (letters : Only Char.isAlpha mnemonic)
      (apart : blanks ≠ [])
      (areBlanks : Blanks blanks)
      (areOperands : AreOperands text operands) :
      IsInstruction (mnemonic ++ blanks ++ text)
        ⟨mnemonic, operands, mnemonic ++ blanks ++ text⟩

/-- Identifiers with a colon each, with optional blanks after it. -/
inductive AreLabels : Text → List Text → Prop where
  | none :
      AreLabels [] []
  | label
      {name blanks rest : Text}
      {names : List Text}
      (isIdentifier : Identifier name)
      (areBlanks : Blanks blanks)
      (areLabels : AreLabels rest names) :
      AreLabels (name ++ ':' :: (blanks ++ rest)) (name :: names)

/-- Nothing, a directive, which is a dot and anything but a comment, or an instruction. -/
inductive IsBody : Text → Option Statement → Prop where
  | nothing :
      IsBody [] none
  | directive
      {text : Text}
      (noComment : '#' ∉ text) :
      IsBody ('.' :: text) none
  | instruction
      {text : Text}
      {statement : Statement}
      (isInstruction : IsInstruction text statement) :
      IsBody text (some statement)

/-- Nothing, or a number sign and anything. -/
inductive Comment : Text → Prop where
  | none :
      Comment []
  | comment (text : Text) :
      Comment ('#' :: text)

/-- A line: labels and a body between blanks, and then a comment, if there is one. -/
inductive IsLine : Text → Content → Prop where
  | mk
      {leading labels body trailing comment : Text}
      {names : List Text}
      {statement? : Option Statement}
      (blanksBefore : Blanks leading)
      (areLabels : AreLabels labels names)
      (isBody : IsBody body statement?)
      (blanksAfter : Blanks trailing)
      (isComment : Comment comment) :
      IsLine (leading ++ labels ++ body ++ trailing ++ comment) ⟨names, statement?⟩

end TinyMips.Grammar
