import TinyMips.Proofs.Grammar.Token
import TinyMips.Source.Operand

namespace TinyMips.Operand

open Grammar

/-!
# Operands of the language

What is read as an operand is one, and an operand with its right neighbours after it
is read as itself: the first character and the parenthesis after an offset decide
between the kinds, so the order in which they are tried does not matter.
-/

/-- An operand keeps the text that it was written as. -/
theorem text_of_isOperand
    {text : Text}
    {operand : Operand}
    (isOperand : IsOperand text operand) :
    operand.text = text := by
  cases isOperand with
  | register _ => rfl
  | immediate _ => rfl
  | memory _ _ => simp [Operand.text]
  | symbol _ => rfl

/-! ## First characters -/

/-- An immediate begins with a digit or a sign. -/
theorem immediate_head
    {text : Text}
    (isImmediate : Immediate text) :
    ∃ c rest, text = c :: rest ∧ (c.isDigit = true ∨ c = '-' ∨ c = '+') := by
  cases isImmediate with
  | unsigned natural =>
      obtain ⟨c, rest, shape, digit⟩ := Token.natural_head natural
      exact ⟨c, rest, shape, .inl digit⟩
  | signed isSign natural =>
      exact ⟨_, _, rfl, .inr isSign⟩

/-- No integer is found where neither a digit nor a sign stands. -/
theorem immediate?_cons_of_ne
    {c : Char}
    (noDigit : c.isDigit = false)
    (noMinus : c ≠ '-')
    (noPlus : c ≠ '+')
    (rest : Text) :
    Token.immediate? (c :: rest) = none := by
  cases found : Token.immediate? (c :: rest) with
  | none => rfl
  | some cut =>
      have splits := Token.immediate?_splits found
      obtain ⟨first, others, shape, kind⟩ :=
        immediate_head (Token.immediate_of_immediate? found)
      rw [Token.Cut.Splits, shape] at splits
      obtain rfl : first = c := (List.cons.inj splits).1
      rcases kind with digit | minus | plus
      · simp [noDigit] at digit
      · exact absurd minus noMinus
      · exact absurd plus noPlus

/-- A register begins with its mark. -/
theorem register?_cons_of_ne
    {c : Char}
    (noDollar : c ≠ '$')
    (rest : Text) :
    Token.register? (c :: rest) = none := by
  rw [Token.register?]
  intro name shape
  exact noDollar (List.cons.inj shape).1

/-- An operand begins with neither a blank nor a comma. -/
theorem isOperand_head
    {text : Text}
    {operand : Operand}
    (isOperand : IsOperand text operand) :
    ∃ c rest, text = c :: rest ∧ Text.isBlank c = false ∧ c ≠ ',' := by
  have ofImmediate
      {offset : Text}
      (isImmediate : Immediate offset) :
      ∃ c rest, offset = c :: rest ∧ Text.isBlank c = false ∧ c ≠ ',' := by
    obtain ⟨c, rest, rfl, digit | rfl | rfl⟩ := immediate_head isImmediate
    · exact ⟨c, rest, rfl, Text.isBlank_of_class digit (by decide) (by decide),
        Text.ne_of_class digit (by decide)⟩
    · exact ⟨_, rest, rfl, by decide, by decide⟩
    · exact ⟨_, rest, rfl, by decide, by decide⟩
  cases isOperand with
  | register isRegister =>
      cases isRegister
      exact ⟨'$', _, rfl, by decide, by decide⟩
  | immediate isImmediate =>
      exact ofImmediate isImmediate
  | @memory offset? base isOffset isBase =>
      cases offset? with
      | none =>
          exact ⟨'(', _, rfl, by decide, by decide⟩
      | some offset =>
          obtain ⟨c, rest, rfl, notBlank, noComma⟩ := ofImmediate (isOffset offset rfl)
          exact ⟨c, _, rfl, notBlank, noComma⟩
  | symbol isIdentifier =>
      obtain ⟨starts, _⟩ := isIdentifier
      exact ⟨_, _, rfl, Text.isBlank_of_class starts (by decide) (by decide),
        Text.ne_of_class starts (by decide)⟩

/-- No operand begins with a blank. -/
theorem notBlank_of_isOperand
    {text : Text}
    {operand : Operand}
    (isOperand : IsOperand text operand)
    (rest : Text) :
    Token.Stops Text.isBlank (text ++ rest) := by
  obtain ⟨c, others, rfl, notBlank, _⟩ := isOperand_head isOperand
  exact Token.stops_cons_iff.mpr notBlank

/-! ## Characters -/

/-- A character that operands are written with. -/
def isOperandChar (c : Char) : Bool :=
  Text.isNameRest c || ['$', '+', '-', '(', ')'].contains c

/-- The characters of names may stand in operands. -/
theorem isOperandChar_of_isNameRest
    {word : Text}
    (inName : Only Text.isNameRest word) :
    Only isOperandChar word := by
  intro c member
  simp [isOperandChar, inName c member]

theorem onlyOperandChar_of_identifier
    {name : Text}
    (isIdentifier : Identifier name) :
    Only isOperandChar name := by
  obtain @⟨first, rest, starts, goesOn⟩ := isIdentifier
  apply isOperandChar_of_isNameRest
  refine List.forall_mem_cons.mpr ⟨?_, goesOn⟩
  rcases Bool.or_eq_true_iff.mp starts with letter | underscore
  · simp [Text.isNameRest, Char.isAlphanum, letter]
  · simp [Text.isNameRest, underscore]

theorem onlyOperandChar_of_register
    {name : Text}
    (isRegister : Register name) :
    Only isOperandChar name := by
  obtain ⟨_, alphanumeric⟩ := isRegister
  refine List.forall_mem_cons.mpr ⟨by decide, isOperandChar_of_isNameRest ?_⟩
  intro c member
  simp [Text.isNameRest, alphanumeric c member]

theorem onlyOperandChar_of_immediate
    {text : Text}
    (isImmediate : Immediate text) :
    Only isOperandChar text := by
  cases isImmediate with
  | unsigned natural =>
      exact isOperandChar_of_isNameRest (Token.onlyNameRest_of_natural natural)
  | signed isSign natural =>
      refine List.forall_mem_cons.mpr
        ⟨?_, isOperandChar_of_isNameRest (Token.onlyNameRest_of_natural natural)⟩
      rcases isSign with rfl | rfl <;> decide

/-- An operand has no comma, blank or comment in it. -/
theorem onlyOperandChar_of_isOperand
    {text : Text}
    {operand : Operand}
    (isOperand : IsOperand text operand) :
    Only isOperandChar text := by
  cases isOperand with
  | register isRegister => exact onlyOperandChar_of_register isRegister
  | immediate isImmediate => exact onlyOperandChar_of_immediate isImmediate
  | @memory offset? base isOffset isBase =>
      have inOffset : Only isOperandChar (offset?.getD []) := by
        cases offset? with
        | none => simp [Only]
        | some offset => exact onlyOperandChar_of_immediate (isOffset offset rfl)
      have inBase : Only isOperandChar base :=
        isBase.elim onlyOperandChar_of_register onlyOperandChar_of_identifier
      have closed : Only isOperandChar [')'] :=
        List.forall_mem_singleton.mpr (by decide)
      exact List.forall_mem_append.mpr ⟨inOffset,
        List.forall_mem_cons.mpr ⟨by decide, List.forall_mem_append.mpr ⟨inBase, closed⟩⟩⟩
  | symbol isIdentifier => exact onlyOperandChar_of_identifier isIdentifier

/-! ## What is read is an operand -/

theorem isBase_of_base?
    {text : Text}
    {cut : Token.Cut}
    (found : base? text = some cut) :
    Register cut.token ∨ Identifier cut.token := by
  rcases Option.or_eq_some_iff.mp found with isRegister | ⟨_, isIdentifier⟩
  · exact .inl (Token.register_of_register? isRegister)
  · exact .inr (Token.identifier_of_identifier? isIdentifier)

/-- The offset that is read is an immediate, if there is one. -/
theorem isOffset_of_offset (text : Text) :
    ∀ token ∈ (offset text).1, Immediate token := by
  unfold offset
  split
  · rename_i cut found
    rintro token ⟨⟩
    exact Token.immediate_of_immediate? found
  · simp

/-- A memory operand that is read has the form of one. -/
theorem isOperand_of_readMemory?
    {whole rest : Text}
    {operand : Operand}
    (found : readMemory? whole = some (operand, rest)) :
    IsOperand operand.text operand := by
  have isOffset := isOffset_of_offset whole
  unfold readMemory? at found
  split at found
  · rename_i offset? inside offsetShape
    rw [offsetShape] at isOffset
    split at found
    · rename_i base afterBase baseFound
      obtain ⟨rfl, rfl⟩ := Prod.mk.inj (Option.some.inj found)
      simpa [text] using IsOperand.memory isOffset (isBase_of_base? baseFound)
    · simp at found
  · simp at found

/-- An operand that is read from one token has the form that tokens of its kind have. -/
theorem isOperand_of_ofToken?
    {kind : Text → Operand}
    {cut? : Option Token.Cut}
    {operand : Operand}
    {rest : Text}
    (isOperand : ∀ cut, cut? = some cut → IsOperand cut.token (kind cut.token))
    (found : ofToken? kind cut? = some (operand, rest)) :
    IsOperand operand.text operand := by
  obtain ⟨cut, cutFound, pair⟩ := Option.map_eq_some_iff.mp found
  obtain ⟨rfl, rfl⟩ := Prod.mk.inj pair
  rw [text_of_isOperand (isOperand cut cutFound)]
  exact isOperand cut cutFound

/-- What is read as an operand is one. -/
theorem isOperand_of_read?
    {whole rest : Text}
    {operand : Operand}
    (found : read? whole = some (operand, rest)) :
    IsOperand operand.text operand := by
  rcases Option.or_eq_some_iff.mp found with isMemory | ⟨_, found⟩
  · exact isOperand_of_readMemory? isMemory
  rcases Option.or_eq_some_iff.mp found with isRegister | ⟨_, found⟩
  · exact isOperand_of_ofToken?
      (fun _ cut => .register (Token.register_of_register? cut)) isRegister
  rcases Option.or_eq_some_iff.mp found with isImmediate | ⟨_, isSymbol⟩
  · exact isOperand_of_ofToken?
      (fun _ cut => .immediate (Token.immediate_of_immediate? cut)) isImmediate
  · exact isOperand_of_ofToken?
      (fun _ cut => .symbol (Token.identifier_of_identifier? cut)) isSymbol

/-! ## An operand is read as itself -/

/-- What can follow an operand: nothing, a separator or a comment. -/
def Followed (rest : Text) : Prop :=
  ∀ c ∈ rest.head?, Text.isBlank c = true ∨ c = ',' ∨ c = '#'

/-- A token of an operand ends where the operand does. -/
theorem Followed.stops
    {rest : Text}
    (followed : Followed rest)
    {inClass : Char → Bool}
    (outside :
      inClass ' ' = false ∧ inClass '\t' = false ∧ inClass ',' = false ∧ inClass '#' = false) :
    Token.Stops inClass rest := by
  obtain ⟨noSpace, noTab, noComma, noSign⟩ := outside
  intro c first
  rcases followed c first with blank | rfl | rfl
  · have either : c = ' ' ∨ c = '\t' := by
      simpa [Text.isBlank] using blank
    rcases either with rfl | rfl
    · exact noSpace
    · exact noTab
  · exact noComma
  · exact noSign

/-- Without a digit or a sign at the front there is no offset. -/
theorem offset_cons_of_ne
    {c : Char}
    (noDigit : c.isDigit = false)
    (noMinus : c ≠ '-')
    (noPlus : c ≠ '+')
    (rest : Text) :
    offset (c :: rest) = (none, c :: rest) := by
  rw [offset, immediate?_cons_of_ne noDigit noMinus noPlus]

/-- Without an opening parenthesis behind the offset there is no memory operand. -/
theorem readMemory?_of_offset
    {whole after : Text}
    {offset? : Option Text}
    (found : offset whole = (offset?, after))
    (notOpened : ∀ inside, after ≠ '(' :: inside) :
    readMemory? whole = none := by
  rw [readMemory?, found]
  split
  · rename_i opened
    exact absurd (Prod.mk.inj opened).2 (notOpened _)
  · rfl

/-- A base before a closing parenthesis is read whole. -/
theorem base?_of_isBase
    {base : Text}
    (isBase : Register base ∨ Identifier base)
    (rest : Text) :
    base? (base ++ ')' :: rest) = some ⟨base, ')' :: rest⟩ := by
  rcases isBase with isRegister | isIdentifier
  · rw [base?, Token.register?_of_register isRegister (Token.stops_cons_iff.mpr (by decide))]
    rfl
  · rw [base?,
      Token.identifier?_of_identifier isIdentifier (Token.stops_cons_iff.mpr (by decide))]
    obtain ⟨starts, _⟩ := isIdentifier
    rw [List.cons_append, register?_cons_of_ne (Text.ne_of_class starts (by decide))]
    rfl

/-- A memory operand is read with its offset and its base. -/
theorem readMemory?_of_memory
    {offset? : Option Text}
    {base : Text}
    (isOffset : ∀ token ∈ offset?, Immediate token)
    (isBase : Register base ∨ Identifier base)
    (rest : Text) :
    readMemory? (offset?.getD [] ++ '(' :: (base ++ ')' :: rest)) =
      some (memory offset? base, rest) := by
  have offsetFound :
      offset (offset?.getD [] ++ '(' :: (base ++ ')' :: rest)) =
        (offset?, '(' :: (base ++ ')' :: rest)) := by
    cases offset? with
    | none =>
        exact offset_cons_of_ne (by decide) (by decide) (by decide) _
    | some token =>
        rw [Option.getD_some, offset, Token.immediate?_of_immediate (isOffset token rfl)
          (Token.stops_cons_iff.mpr (by decide))]
  simp [readMemory?, offsetFound, base?_of_isBase isBase]

/-- An operand with what can follow it is read as itself. -/
theorem read?_of_isOperand
    {text rest : Text}
    {operand : Operand}
    (isOperand : IsOperand text operand)
    (followed : Followed rest) :
    read? (text ++ rest) = some (operand, rest) := by
  cases isOperand with
  | register isRegister =>
      have found := Token.register?_of_register isRegister (followed.stops (by decide))
      cases isRegister with
      | @mk name nonempty alphanumeric =>
          have noMemory : readMemory? ('$' :: name ++ rest) = none :=
            readMemory?_of_offset (offset_cons_of_ne (by decide) (by decide) (by decide) _)
              (by simp)
          rw [read?, noMemory, found]
          rfl
  | immediate isImmediate =>
      have found := Token.immediate?_of_immediate isImmediate (followed.stops (by decide))
      have noMemory : readMemory? (text ++ rest) = none := by
        apply readMemory?_of_offset (by rw [offset, found])
        rintro inside rfl
        exact absurd (followed '(' rfl) (by decide)
      have noRegister : Token.register? (text ++ rest) = none := by
        obtain ⟨c, digits, rfl, digit | rfl | rfl⟩ := immediate_head isImmediate
        · exact register?_cons_of_ne (Text.ne_of_class digit (by decide)) _
        · rfl
        · rfl
      rw [read?, noMemory, noRegister, found]
      rfl
  | memory isOffset isBase =>
      have found := readMemory?_of_memory isOffset isBase rest
      simp [read?, found]
  | symbol isIdentifier =>
      have found := Token.identifier?_of_identifier isIdentifier (followed.stops (by decide))
      cases isIdentifier with
      | @mk first name starts goesOn =>
          have noDigit := Text.isDigit_of_isNameStart starts
          have noMinus : first ≠ '-' := Text.ne_of_class starts (by decide)
          have noPlus : first ≠ '+' := Text.ne_of_class starts (by decide)
          have noMemory : readMemory? (first :: name ++ rest) = none := by
            apply readMemory?_of_offset (offset_cons_of_ne noDigit noMinus noPlus _)
            intro inside opened
            exact Text.ne_of_class starts (by decide) (List.cons.inj opened).1
          have noRegister : Token.register? (first :: name ++ rest) = none :=
            register?_cons_of_ne (Text.ne_of_class starts (by decide)) _
          have noImmediate : Token.immediate? (first :: name ++ rest) = none :=
            immediate?_cons_of_ne noDigit noMinus noPlus _
          rw [read?, noMemory, noRegister, noImmediate, found]
          rfl

end TinyMips.Operand
