import TinyMips.Source.Content

namespace TinyMips

/-!
# Where a line stops being readable

A line outside the grammar is reported at the furthest place at which some part
of the grammar was tried and did not fit, together with the parts tried there.
A part that failed because exactly one smaller part failed at its own start is
reported as that smaller part; otherwise it stands for everything tried inside
it. Attempts inside a token are never reported.
-/

/-- A part of the grammar that an error message can name. -/
inductive Part where
  /-- The end of the text. -/
  | endOfText
  /-- A whole source text. -/
  | program
  /-- A label with its colon. -/
  | label
  /-- A directive. -/
  | directive
  /-- A mnemonic. -/
  | mnemonic
  /-- An offset from a base register. -/
  | memory
  /-- A register with its dollar sign. -/
  | register
  /-- An integer literal. -/
  | immediate
  /-- A bare name. -/
  | identifier
  deriving Repr, DecidableEq

namespace Part

/-- Every part, in the order in which messages list them. -/
def all : List Part :=
  [.endOfText, .program, .label, .directive, .mnemonic, .memory, .register, .immediate,
    .identifier]

/-- The name a message gives to a part. -/
def name : Part → String
  | .endOfText => "EOI"
  | .program => "program"
  | .label => "label"
  | .directive => "directive"
  | .mnemonic => "mnemonic"
  | .memory => "memory"
  | .register => "register"
  | .immediate => "immediate"
  | .identifier => "identifier"

/-- Several names as an enumeration that ends in `or`. -/
def enumerate : List String → String
  | [] => ""
  | [only] => only
  | [first, second] => s!"{first} or {second}"
  | names =>
      String.intercalate ", " names.dropLast ++ ", or " ++ names.getLastD ""

/-- The names of the parts that occur in a list, once each and in message order. -/
def describe (parts : List Part) : String :=
  enumerate ((all.filter parts.contains).map name)

end Part

/-- The furthest place at which parts were tried in vain, if any were. -/
structure Furthest where
  position : Nat
  parts : List Part
  deriving Repr, DecidableEq

namespace Furthest

/-- Nothing failed. -/
def nothing : Furthest := ⟨0, []⟩

/-- One part failed. -/
def single (position : Nat) (part : Part) : Furthest := ⟨position, [part]⟩

/-- What is known after two attempts: the further place, or both lists at the same place. -/
def merge (first second : Furthest) : Furthest :=
  if second.parts.isEmpty || first.position > second.position && !first.parts.isEmpty then
    first
  else if first.parts.isEmpty || first.position < second.position then
    second
  else
    ⟨first.position, first.parts ++ second.parts⟩

/-- A part that starts at `position` failed after the given attempts inside it. -/
def within (part : Part) (position : Nat) (inner : Furthest) : Furthest :=
  match inner.parts with
  | [] => single position part
  | [_] => inner
  | _ => if inner.position > position then inner else single position part

/-- A token at a position, and the failure if it is not there. -/
def ofToken (part : Part) (position : Nat) (cut? : Option Token.Cut) : Furthest :=
  match cut? with
  | some _ => nothing
  | none => single position part

/-- The failures of a base register at a position. -/
def ofBase (position : Nat) (text : Text) : Furthest :=
  match Token.register? text with
  | some _ => nothing
  | none =>
      (single position .register).merge
        (ofToken .identifier position (Token.identifier? text))

/-- The failures of an operand read as a memory operand. -/
def ofMemory (position : Nat) (text : Text) : Furthest :=
  let (offset?, afterOffset) := Operand.offset text
  let offsetFailure := ofToken .immediate position (Token.immediate? text)
  let inner :=
    match afterOffset with
    | '(' :: inside =>
        let start := position + (offset?.getD []).length + 1
        offsetFailure.merge (ofBase start inside)
    | _ => offsetFailure
  if (Operand.readMemory? text).isSome then inner else within .memory position inner

/-- The failures of an operand, all its kinds being tried in turn until one fits. -/
def ofOperand (position : Nat) (text : Text) : Furthest :=
  let memory := ofMemory position text
  if (Operand.readMemory? text).isSome then
    memory
  else
    let register := memory.merge (ofToken .register position (Token.register? text))
    if (Token.register? text).isSome then
      register
    else
      let immediate := register.merge (ofToken .immediate position (Token.immediate? text))
      if (Token.immediate? text).isSome then
        immediate
      else
        immediate.merge (ofToken .identifier position (Token.identifier? text))

/-- The failures of the operands after the first one, and of the one that is missing. -/
def ofMoreOperands (earlier : Furthest) (position : Nat) (text : Text) : Furthest :=
  match _separatorFound : Token.separator? text with
  | none => earlier
  | some separator =>
      let start := position + separator.token.length
      let found := earlier.merge (ofOperand start separator.rest)
      match _operandFound : Operand.read? separator.rest with
      | none => found
      | some (operand, rest) => ofMoreOperands found (start + operand.text.length) rest
  termination_by text.length
  decreasing_by exact Statement.rest_length_lt (by assumption) (by assumption)

/-- The failures of the operands after a mnemonic. -/
def ofOperands (position : Nat) (text : Text) : Furthest :=
  let blanks := Token.run Text.isBlank text
  if blanks.token.isEmpty then
    nothing
  else
    let start := position + blanks.token.length
    let first := ofOperand start blanks.rest
    match Operand.read? blanks.rest with
    | none => first
    | some (operand, rest) => ofMoreOperands first (start + operand.text.length) rest

/-- The failures of a statement. -/
def ofStatement (position : Nat) (text : Text) : Furthest :=
  match Token.mnemonic? text with
  | none => single position .mnemonic
  | some mnemonic => ofOperands (position + mnemonic.token.length) mnemonic.rest

/-- The failure of a label where there is none. -/
def ofMissingLabel (position : Nat) (text : Text) : Furthest :=
  within .label position (ofToken .identifier position (Token.identifier? text))

/--
The failures of what stands after the labels of a line, ending with the failure
to find the end of the text after it.
-/
def ofBody (position : Nat) (text : Text) : Furthest :=
  let tried :=
    ((ofMissingLabel position text).merge (single position .directive)).merge
      (ofStatement position text)
  let stopped :=
    match Statement.read? text with
    | none => position
    | some (statement, rest) =>
        position + statement.text.length + (Token.run Text.isBlank rest).token.length
  tried.merge (single stopped .endOfText)

/-- The failures of a line outside the grammar, from its first label on. -/
def ofLabelled (position : Nat) (text : Text) : Furthest :=
  match _found : Token.label? text with
  | none => ofBody position text
  | some label =>
      let skipped := (Token.run Text.isBlank label.rest).token.length
      ofLabelled (position + label.token.length + 1 + skipped) (Token.skip label.rest)
  termination_by text.length
  decreasing_by exact Content.label_rest_length_lt (by assumption)

/-- Where a line outside the grammar stops being readable, counted from its start. -/
def ofLine (line : Text) : Furthest :=
  ofLabelled (Token.run Text.isBlank line).token.length (Token.skip line)

end Furthest

end TinyMips
