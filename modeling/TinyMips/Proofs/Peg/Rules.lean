import TinyMips.Proofs.Peg.Locality

namespace TinyMips.Peg

/-!
# The rules of the source language

The grammar of a whole source text, and that of an assertion, as parsing expressions.
Spaces, tabs and comments may stand between the parts of a program and of a line, but not
inside a label, a directive or an instruction. Only the rules that a message can name are
remembered when they fail.
-/

namespace Rules

open Expression

/-- A space or a tab. -/
def blank : Expression :=
  character Text.isBlank

/-- A line feed, a carriage return and a line feed, or a carriage return. -/
def newline : Expression :=
  choice (exactly '\n') (choice (sequence (exactly '\r') (exactly '\n')) (exactly '\r'))

/-- A number sign and everything up to the end of the line. -/
def comment : Expression :=
  sequence (exactly '#') (repetition (character fun c => c ≠ '\n' && c ≠ '\r'))

/-- What may stand between the parts of a line: blanks, and comments with blanks after them. -/
def skip : Expression :=
  sequence (repetition blank) (repetition (sequence comment (repetition blank)))

/-! ## Tokens -/

/-- A letter or an underscore, then letters, digits, underscores and dots. -/
def identifier : Expression :=
  rule .identifier (sequence (character Text.isNameStart) (repetition (character Text.isNameRest)))

/-- A dollar sign, then letters and digits. -/
def register : Expression :=
  rule .register (sequence (exactly '$') (atLeastOnce (character Char.isAlphanum)))

/-- A minus or plus sign, if there is one. -/
def sign : Expression :=
  optional (choice (exactly '-') (exactly '+'))

/-- What marks hexadecimal digits. -/
def hexMark : Expression :=
  choice (sequence (exactly '0') (exactly 'x')) (sequence (exactly '0') (exactly 'X'))

/-- Hexadecimal digits after their mark, or decimal digits. -/
def numeral : Expression :=
  choice (sequence hexMark (atLeastOnce (character Text.isHexDigit)))
    (atLeastOnce (character Char.isDigit))

/-- A numeral after an optional sign, where no name goes on. -/
def immediate : Expression :=
  rule .immediate (sequence sign (sequence numeral (absence (character Text.isNameRest))))

/-- Letters. -/
def mnemonic : Expression :=
  rule .mnemonic (atLeastOnce (character Char.isAlpha))

/-! ## Statements -/

/-- A base register in parentheses, after an optional offset. -/
def memory : Expression :=
  rule .memory
    (sequence (optional immediate)
      (sequence (exactly '(') (sequence (choice register identifier) (exactly ')'))))

/-- Any operand. -/
def operand : Expression :=
  choice memory (choice register (choice immediate identifier))

/-- One comma with blanks around it, or blanks alone. -/
def separator : Expression :=
  choice (sequence (repetition blank) (sequence (exactly ',') (repetition blank)))
    (atLeastOnce blank)

/-- Operands with separators between them. -/
def operands : Expression :=
  sequence operand (repetition (sequence separator operand))

/-- A mnemonic and, after blanks, operands, if there are any. -/
def instruction : Expression :=
  rule .instruction (sequence mnemonic (optional (sequence (atLeastOnce blank) operands)))

/-! ## Lines -/

/-- An identifier and a colon. -/
def label : Expression :=
  rule .label (sequence identifier (exactly ':'))

/-- A dot and everything up to a comment or the end of the line. -/
def directive : Expression :=
  rule .directive
    (sequence (exactly '.') (repetition (character fun c => c ≠ '\n' && c ≠ '\r' && c ≠ '#')))

/-- What may stand after the labels of a line. -/
def body : Expression :=
  optional (choice directive instruction)

/-- Labels, and then a directive, an instruction or nothing. -/
def line : Expression :=
  rule .line (sequence (spaced skip label) (sequence skip body))

/-- A line break and the line after it. -/
def nextLine : Expression :=
  sequence newline (sequence skip line)

/-- Lines with line breaks between them, from the start of a text to its end. -/
def program : Expression :=
  rule .program
    (sequence skip
      (sequence line (sequence skip (sequence (spaced skip nextLine) (sequence skip endOfText)))))

/-! ## Assertions -/

/-- Given characters, one after the other. -/
def wording : Text → Expression
  | [] => empty
  | c :: text => sequence (exactly c) (wording text)

/-- The name of a block. -/
def block : Expression :=
  rule .block (choice (wording (Text.ofString "rf")) (wording (Text.ofString "d_mem")))

/-- The character of an operation. -/
def combinator : Expression :=
  rule .combinator (choice (exactly '&') (choice (exactly '|') (exactly '^')))

/-- Hexadecimal digits after their mark, or decimal digits, after an optional minus sign. -/
def integer : Expression :=
  rule .integer
    (sequence (optional (exactly '-'))
      (choice
        (sequence (exactly '0')
          (sequence (choice (exactly 'x') (exactly 'X')) (atLeastOnce (character Text.isHexDigit))))
        (atLeastOnce (character Char.isDigit))))

/-- An operation and an integer: one blank may stand before them, and any number between them. -/
def second : Expression :=
  sequence (optional blank) (sequence combinator (sequence (repetition blank) integer))

/-- An integer, or two with an operation between them. -/
def expectation : Expression :=
  sequence integer (optional second)

/-- The wording of an assertion around its block, its index and its expectation. -/
def assertionBody : Expression :=
  sequence (wording (Text.ofString "assert("))
    (sequence (repetition blank)
      (sequence (wording (Text.ofString "sim.inspect_mem("))
        (sequence block
          (sequence (wording (Text.ofString ")["))
            (sequence integer
              (sequence (wording (Text.ofString "]"))
                (sequence (repetition blank)
                  (sequence (wording (Text.ofString "=="))
                    (sequence (repetition blank)
                      (sequence expectation
                        (sequence (repetition blank)
                          (sequence (wording (Text.ofString ")")) endOfText))))))))))))

/-- A whole assertion, without the mark before it. -/
def assertion : Expression :=
  rule .assertion assertionBody

end Rules

/-- What becomes of a source text. -/
def parse (source : Text) : Attempt :=
  Rules.program.run ⟨0, source⟩

/-- The grammar accepts a source text. -/
def Accepts (source : Text) : Prop :=
  (parse source).next?.isSome = true

/-- The grammar rejects a source text. -/
def Rejects (source : Text) : Prop :=
  (parse source).next? = none

theorem not_accepts_iff
    {source : Text} :
    ¬ Accepts source ↔ Rejects source := by
  simp [Accepts, Rejects]

end TinyMips.Peg
