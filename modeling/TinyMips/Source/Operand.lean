import TinyMips.Register.Basic
import TinyMips.Source.Token
import TinyMips.Text.Literal

namespace TinyMips

/-!
# Operands

An operand keeps the text it was written as. Only its place in a statement says
whether the text has to name a register, fit an immediate field or name a label,
so resolving it is a separate step with errors of its own.
-/

/-- One operand as written. -/
inductive Operand where
  /-- A name with a dollar sign. -/
  | register (name : Text)
  /-- An integer literal. -/
  | immediate (literal : Text)
  /-- A base register in parentheses, after an offset that may be left out. -/
  | memory (offset? : Option Text) (base : Text)
  /-- A bare name: a label, or a register without its dollar sign. -/
  | symbol (name : Text)
  deriving DecidableEq, Repr

namespace Operand

/-- The operand as source text. -/
def text : Operand → Text
  | register name => name
  | immediate literal => literal
  | memory offset? base => offset?.getD [] ++ '(' :: base ++ [')']
  | symbol name => name

/-! ## Reading an operand -/

/-- The base of a memory operand: a register or a bare name. -/
def base? (text : Text) : Option Token.Cut :=
  (Token.register? text).or (Token.identifier? text)

/-- The offset of a memory operand, if there is one, and the text after it. -/
def offset (text : Text) : Option Text × Text :=
  match Token.immediate? text with
  | some cut => (some cut.token, cut.rest)
  | none => (none, text)

/-- A memory operand at the front of a text. -/
def readMemory? (text : Text) : Option (Operand × Text) :=
  match offset text with
  | (offset?, '(' :: inside) =>
      match base? inside with
      | some ⟨base, ')' :: rest⟩ => some (memory offset? base, rest)
      | _ => none
  | _ => none

/-- A token as an operand of a given kind. -/
def ofToken? (kind : Text → Operand) (cut? : Option Token.Cut) : Option (Operand × Text) :=
  cut?.map fun cut => (kind cut.token, cut.rest)

/-- The operand at the front of a text: a memory operand before a plain register or integer. -/
def read? (text : Text) : Option (Operand × Text) :=
  (readMemory? text).or <|
    (ofToken? register (Token.register? text)).or <|
      (ofToken? immediate (Token.immediate? text)).or
        (ofToken? symbol (Token.identifier? text))

/-- A token read as an operand and the text after it make up the text. -/
theorem ofToken?_splits
    {kind : Text → Operand}
    {cut? : Option Token.Cut}
    {whole : Text}
    {operand : Operand}
    {rest : Text}
    (sameText : ∀ token, (kind token).text = token)
    (splits : ∀ cut, cut? = some cut → cut.Splits whole)
    (found : ofToken? kind cut? = some (operand, rest)) :
    operand.text ++ rest = whole := by
  obtain ⟨cut, cutFound, pair⟩ := Option.map_eq_some_iff.1 found
  obtain ⟨rfl, rfl⟩ := Prod.mk.inj pair
  rw [sameText]
  exact splits cut cutFound

/-- A base register and the text after it make up the text. -/
theorem base?_splits
    {whole : Text}
    {cut : Token.Cut}
    (found : base? whole = some cut) :
    cut.Splits whole := by
  rcases Option.or_eq_some_iff.1 found with isRegister | ⟨_, isIdentifier⟩
  · exact Token.register?_splits isRegister
  · exact Token.identifier?_splits isIdentifier

/-- The offset of a memory operand and the text after it make up the text. -/
theorem offset_splits (whole : Text) :
    (offset whole).1.getD [] ++ (offset whole).2 = whole := by
  unfold offset
  split
  · rename_i found
    exact Token.immediate?_splits found
  · rfl

/-- A memory operand and the text after it make up the text. -/
theorem readMemory?_splits
    {whole : Text}
    {operand : Operand}
    {rest : Text}
    (found : readMemory? whole = some (operand, rest)) :
    operand.text ++ rest = whole := by
  have split := offset_splits whole
  unfold readMemory? at found
  split at found
  · rename_i offset? inside offsetShape
    rw [offsetShape] at split
    split at found
    · rename_i base afterBase baseFound
      have inner := base?_splits baseFound
      obtain ⟨rfl, rfl⟩ := Prod.mk.inj (Option.some.inj found)
      simp only [Token.Cut.Splits] at inner
      rw [← split, ← inner]
      simp [text]
    · simp at found
  · simp at found

/-- An operand and the text after it make up the text it was read from. -/
theorem read?_splits
    {whole : Text}
    {operand : Operand}
    {rest : Text}
    (found : read? whole = some (operand, rest)) :
    operand.text ++ rest = whole := by
  rcases Option.or_eq_some_iff.1 found with isMemory | ⟨_, found⟩
  · exact readMemory?_splits isMemory
  rcases Option.or_eq_some_iff.1 found with isRegister | ⟨_, found⟩
  · exact ofToken?_splits (fun _ => rfl) (fun _ => Token.register?_splits) isRegister
  rcases Option.or_eq_some_iff.1 found with isImmediate | ⟨_, isSymbol⟩
  · exact ofToken?_splits (fun _ => rfl) (fun _ => Token.immediate?_splits) isImmediate
  · exact ofToken?_splits (fun _ => rfl) (fun _ => Token.identifier?_splits) isSymbol

end Operand

end TinyMips
