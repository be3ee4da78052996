import TinyMips.Proofs.Peg.Source
import TinyMips.Proofs.Peg.Tree
import TinyMips.Proofs.Source.Item

namespace TinyMips

/-!
# Items from parse trees

What the nodes of a parse tree say: an operand by its rule, a statement by the nodes in it,
and the items of a program by its lines, which are numbered as they come. These are the
items that are read off the text line by line, and there is a tree exactly if there are
items.
-/

open Peg

/-! ## What nodes say -/

/-- What a part of a memory operand adds to what is known of its offset and of its base. -/
def Operand.noteNode (known : Option Text × Text) (node : Node) : Option Text × Text :=
  if node.name = .immediate then (some node.text, known.2) else (known.1, node.text)

/-- The operand that a node stands for. -/
def Operand.ofNode (node : Node) : Operand :=
  match node.name with
  | .register => .register node.text
  | .immediate => .immediate node.text
  | .memory =>
      let (offset?, base) := node.inner.foldl noteNode (none, [])
      .memory offset? base
  | _ => .symbol node.text

/-- What a part of a statement adds to what is known of it. -/
def Statement.noteNode (known : Statement) (node : Node) : Statement :=
  if node.name = .mnemonic then
    { known with mnemonic := node.text }
  else
    { known with operands := known.operands ++ [Operand.ofNode node] }

/-- The statement that a node stands for. -/
def Statement.ofNode (node : Node) : Statement :=
  node.inner.foldl noteNode ⟨[], [], node.text⟩

namespace Item

/-- The items that a part of a line with the given number stands for. -/
def ofNode (number : Nat) (node : Node) : List Item :=
  match node.name with
  | .label => node.inner.head?.toList.map fun name => .label number name.text
  | .instruction => [.statement number (Statement.ofNode node)]
  | _ => []

/-- The items of the lines of a program, which are numbered from one on. -/
def ofProgram (program : Node) : List Item :=
  let lines := program.inner.filter fun node => node.name = .line
  (lines.zipIdx 1).flatMap fun (line, number) => line.inner.flatMap (ofNode number)

/-- The items of what is left of a source text. -/
def ofNodes : List Node → List Item
  | [] => []
  | program :: _ => ofProgram program

end Item

namespace Peg.Rules

open Expression

/-! ## Tokens -/

/-- What is found without a rule is taken without a node. -/
theorem read_of_next?
    {expression : Expression}
    (isSilent : expression.silent = true)
    {text : Text}
    {cut? : Option Token.Cut}
    (ran :
      (expression.run ⟨0, text⟩).next? =
        cut?.map fun cut => ⟨0 + cut.token.length, cut.rest⟩) :
    expression.read text = cut?.map fun cut => ([], cut.rest) := by
  cases cut? with
  | none => exact read_of_run_none 0 ran
  | some cut => exact read_of_silent isSilent ran

/-- A repeated character takes the run of its class and leaves no node. -/
theorem read_run
    (inClass : Char → Bool)
    (text : Text) :
    (repetition (character inClass)).read text = some ([], (Token.run inClass text).rest) :=
  read_of_silent rfl (congrArg Attempt.next? (run_repetition_character inClass 0 text))

/-- A character repeated at least once takes a run that is not empty, or fails. -/
theorem read_someRun
    (inClass : Char → Bool)
    (text : Text) :
    (atLeastOnce (character inClass)).read text =
      (Token.someRun? inClass text).map fun cut => ([], cut.rest) :=
  read_of_next? rfl (congrArg Attempt.next? (run_atLeastOnce_character inClass 0 text))

/-- A rule leaves one node for the token that its expression takes. -/
theorem read_rule_of_cut
    {body : Expression}
    {text : Text}
    {cut? : Option Token.Cut}
    (read : body.read text = cut?.map fun cut => ([], cut.rest))
    (splits : ∀ cut, cut? = some cut → cut.Splits text)
    (name : RuleName) :
    (rule name body).read text = cut?.map fun cut => ([.leaf name cut.token], cut.rest) := by
  cases cut? with
  | none =>
      rw [Expression.read, read]
      rfl
  | some cut =>
      have whole : cut.token ++ cut.rest = text := splits cut rfl
      rw [← whole] at read ⊢
      exact read_rule_of_some read name

/-- A token that its rule finds leaves one node. -/
theorem read_of_ofToken
    {body : Expression}
    (isSilent : body.silent = true)
    {name : RuleName}
    {part : Part}
    {text : Text}
    {cut? : Option Token.Cut}
    (splits : ∀ cut, cut? = some cut → cut.Splits text)
    (ran : (rule name body).run ⟨0, text⟩ = .ofToken part 0 cut?) :
    (rule name body).read text = cut?.map fun cut => ([.leaf name cut.token], cut.rest) := by
  refine read_rule_of_cut (read_of_next? isSilent ?_) splits name
  rw [← next?_run_rule name, ran]
  rfl

/-- An identifier leaves one node for the token that the reader cuts off. -/
theorem read_identifier (text : Text) :
    identifier.read text =
      (Token.identifier? text).map fun cut => ([.leaf .identifier cut.token], cut.rest) :=
  read_of_ofToken (by decide) (fun _ => Token.identifier?_splits) (run_identifier 0 text)

theorem read_register (text : Text) :
    register.read text =
      (Token.register? text).map fun cut => ([.leaf .register cut.token], cut.rest) :=
  read_of_ofToken (by decide) (fun _ => Token.register?_splits) (run_register 0 text)

theorem read_mnemonic (text : Text) :
    mnemonic.read text =
      (Token.mnemonic? text).map fun cut => ([.leaf .mnemonic cut.token], cut.rest) :=
  read_of_ofToken (by decide) (fun _ => Token.someRun?_splits) (run_mnemonic 0 text)

theorem read_immediate (text : Text) :
    immediate.read text =
      (Token.immediate? text).map fun cut => ([.leaf .immediate cut.token], cut.rest) :=
  read_of_ofToken (by decide) (fun _ => Token.immediate?_splits) (run_immediate 0 text)

/-! ## Operands -/

/-- The offset of a memory operand leaves a node exactly if there is an offset. -/
theorem read_offset (text : Text) :
    (optional immediate).read text =
      some ((Operand.offset text).1.toList.map (.leaf .immediate), (Operand.offset text).2) := by
  rw [read_optional, read_immediate, Operand.offset]
  cases Token.immediate? text <;> rfl

/-- The base of a memory operand leaves a node that is not taken for its offset. -/
theorem read_base_of_some
    {text : Text}
    {cut : Token.Cut}
    (found : Operand.base? text = some cut) :
    ∃ name ≠ RuleName.immediate,
      (choice register identifier).read text = some ([.leaf name cut.token], cut.rest) := by
  rw [read_choice, read_register, read_identifier]
  rcases Option.or_eq_some_iff.mp found with isRegister | ⟨noRegister, isIdentifier⟩
  · exact ⟨.register, by decide, by rw [isRegister]; rfl⟩
  · exact ⟨.identifier, by decide, by rw [noRegister, isIdentifier]; rfl⟩

/-- The node of a memory operand stands for the operand that is read. -/
theorem read_memory_of_some
    {text rest : Text}
    {operand : Operand}
    (found : Operand.readMemory? text = some (operand, rest)) :
    ∃ node,
      memory.read text = some ([node], rest) ∧
        node.name = .memory ∧ Operand.ofNode node = operand := by
  have splits := Operand.readMemory?_splits found
  unfold Operand.readMemory? at found
  split at found
  · rename_i offset? inside offsetFound
    split at found
    · rename_i base afterBase baseFound
      obtain ⟨rfl, rfl⟩ := Prod.mk.inj (Option.some.inj found)
      obtain ⟨name, notImmediate, readBase⟩ := read_base_of_some baseFound
      have body :
          (sequence (optional immediate)
            (sequence (exactly '(') (sequence (choice register identifier) (exactly ')')))).read
              text =
            some (offset?.toList.map (.leaf .immediate) ++ [.leaf name base], afterBase) := by
        rw [read_sequence, read_offset, offsetFound, Reading.andThen_some, read_sequence,
          read_exactly_cons, Reading.andThen_silent, read_sequence, readBase,
          Reading.andThen_some, read_exactly_cons]
        rfl
      rw [← splits] at body ⊢
      refine ⟨_, read_rule_of_some body .memory, rfl, ?_⟩
      cases offset? with
      | none => simp [Operand.ofNode, Operand.noteNode, notImmediate]
      | some offset => simp [Operand.ofNode, Operand.noteNode, notImmediate]
    · simp at found
  · simp at found

/-- Where the reader finds no memory operand, there is no node for one. -/
theorem read_memory_of_none
    {text : Text}
    (missing : Operand.readMemory? text = none) :
    memory.read text = none := by
  apply read_of_run_none 0
  rw [run_memory, missing]
  rfl

/-- A token that stands for an operand leaves one node for it. -/
theorem exists_leaf_of_ofToken?
    {kind : Text → Operand}
    {cut? : Option Token.Cut}
    {operand : Operand}
    {rest : Text}
    (found : Operand.ofToken? kind cut? = some (operand, rest))
    {name : RuleName}
    (notMnemonic : name ≠ .mnemonic)
    (stands : ∀ token, Operand.ofNode (.leaf name token) = kind token) :
    ∃ node : Node,
      (cut?.map fun cut => ([Node.leaf name cut.token], cut.rest)) = some ([node], rest) ∧
        node.name ≠ .mnemonic ∧ Operand.ofNode node = operand := by
  obtain ⟨cut, rfl, same⟩ := Option.map_eq_some_iff.mp found
  obtain ⟨rfl, rfl⟩ := Prod.mk.inj same
  exact ⟨.leaf name cut.token, rfl, notMnemonic, stands cut.token⟩

/-- An operand leaves one node, which stands for the operand that is read. -/
theorem read_operand_of_some
    {text rest : Text}
    {operand : Operand}
    (found : Operand.read? text = some (operand, rest)) :
    ∃ node,
      Rules.operand.read text = some ([node], rest) ∧
        node.name ≠ .mnemonic ∧ Operand.ofNode node = operand := by
  rw [Rules.operand, read_choice, read_choice, read_choice, read_register, read_immediate,
    read_identifier]
  rcases Option.or_eq_some_iff.mp found with isMemory | ⟨noMemory, found⟩
  · obtain ⟨node, readMemory, name, stands⟩ := read_memory_of_some isMemory
    exact ⟨node, by rw [readMemory]; rfl, by simp [name], stands⟩
  rw [read_memory_of_none noMemory]
  rcases Option.or_eq_some_iff.mp found with isRegister | ⟨noRegister, found⟩
  · obtain ⟨node, left, stands⟩ :=
      exists_leaf_of_ofToken? isRegister (by decide : RuleName.register ≠ .mnemonic) fun _ => rfl
    exact ⟨node, by rw [left]; rfl, stands⟩
  rw [Option.map_eq_none_iff.mp noRegister]
  rcases Option.or_eq_some_iff.mp found with isImmediate | ⟨noImmediate, isSymbol⟩
  · obtain ⟨node, left, stands⟩ :=
      exists_leaf_of_ofToken? isImmediate (by decide : RuleName.immediate ≠ .mnemonic) fun _ => rfl
    exact ⟨node, by rw [left]; rfl, stands⟩
  rw [Option.map_eq_none_iff.mp noImmediate]
  obtain ⟨node, left, stands⟩ :=
    exists_leaf_of_ofToken? isSymbol (by decide : RuleName.identifier ≠ .mnemonic) fun _ => rfl
  exact ⟨node, by rw [left]; rfl, stands⟩

theorem read_operand_of_none
    {text : Text}
    (missing : Operand.read? text = none) :
    Rules.operand.read text = none := by
  apply read_of_run_none 0
  rw [run_operand, missing]
  rfl

/-! ## Statements -/

/-- A separator takes the token that the reader cuts off, without a node. -/
theorem read_separator (text : Text) :
    separator.read text = (Token.separator? text).map fun cut => ([], cut.rest) :=
  read_of_next? (by decide) (congrArg Attempt.next? (run_separator 0 text))

/-- The operands after the first one leave a node each. -/
theorem read_moreOperands
    (earlier : List Statement.Separated)
    (text : Text) :
    ∃ nodes,
      (repetition (sequence separator operand)).read text =
          some (nodes, (Statement.readMore earlier text).2) ∧
        (Statement.readMore earlier text).1.map Prod.snd =
          earlier.reverse.map Prod.snd ++ nodes.map Operand.ofNode ∧
        ∀ node ∈ nodes, node.name ≠ .mnemonic := by
  fun_induction Statement.readMore earlier text with
  | case1 earlier text separatorMissing =>
      have failed : (sequence separator operand).read text = none := by
        rw [read_sequence, read_separator, separatorMissing]
        rfl
      exact ⟨[], read_repetition_of_none failed, by simp, by simp⟩
  | case2 earlier text cut separatorFound operandMissing =>
      have failed : (sequence separator operand).read text = none := by
        rw [read_sequence, read_separator, separatorFound, Option.map_some,
          Reading.andThen_silent]
        exact read_operand_of_none operandMissing
      exact ⟨[], read_repetition_of_none failed, by simp, by simp⟩
  | case3 earlier text cut separatorFound operand rest operandFound inductionHypothesis =>
      obtain ⟨node, readOperand, name, rfl⟩ := read_operand_of_some operandFound
      obtain ⟨nodes, readMore, operands, names⟩ := inductionHypothesis
      have fits : (sequence separator Rules.operand).read text = some ([node], rest) := by
        rw [read_sequence, read_separator, separatorFound, Option.map_some,
          Reading.andThen_silent]
        exact readOperand
      refine ⟨node :: nodes, ?_, by simp [operands],
        List.forall_mem_cons.mpr ⟨name, names⟩⟩
      rw [read_repetition_of_some (by decide) fits, Reading.andThen_some, readMore]
      rfl

/-- The operands of a statement leave a node each, and nothing is left where there are none. -/
theorem read_someOperands (text : Text) :
    ∃ nodes,
      (optional (sequence (atLeastOnce blank) operands)).read text =
          some (nodes, (Statement.readOperands text).2) ∧
        (Statement.readOperands text).1.map Prod.snd = nodes.map Operand.ofNode ∧
        ∀ node ∈ nodes, node.name ≠ .mnemonic := by
  rw [read_optional, read_sequence, blank, read_someRun, Token.someRun?, Statement.readOperands]
  generalize Token.run Text.isBlank text = blanks
  by_cases apart : blanks.token.isEmpty
  · refine ⟨[], ?_, ?_, by simp⟩ <;> simp [apart, Reading.andThen_none, Reading.orElse]
  · simp only [apart, Bool.false_eq_true, if_false, Option.map_some, Reading.andThen_silent]
    cases operandFound : Operand.read? blanks.rest with
    | none =>
        refine ⟨[], ?_, rfl, by simp⟩
        rw [operands, read_sequence, read_operand_of_none operandFound]
        rfl
    | some found =>
        obtain ⟨operand, rest⟩ := found
        obtain ⟨node, readOperand, name, rfl⟩ := read_operand_of_some operandFound
        obtain ⟨nodes, readMore, others, names⟩ :=
          read_moreOperands [(blanks.token, Operand.ofNode node)] rest
        refine ⟨node :: nodes, ?_, by simpa using others,
          List.forall_mem_cons.mpr ⟨name, names⟩⟩
        rw [operands, read_sequence, readOperand, Reading.andThen_some, readMore]
        rfl

/-- What the nodes of operands add to a statement. -/
theorem foldl_noteNode
    {nodes : List Node}
    (names : ∀ node ∈ nodes, node.name ≠ .mnemonic)
    (known : Statement) :
    nodes.foldl Statement.noteNode known =
      { known with operands := known.operands ++ nodes.map Operand.ofNode } := by
  induction nodes generalizing known with
  | nil => simp
  | cons node nodes inductionHypothesis =>
      obtain ⟨name, others⟩ := List.forall_mem_cons.mp names
      rw [List.foldl_cons, inductionHypothesis others]
      simp [Statement.noteNode, name]

/-- A statement leaves one node, which stands for the statement that is read. -/
theorem read_instruction_of_some
    {text rest : Text}
    {statement : Statement}
    (found : Statement.read? text = some (statement, rest)) :
    ∃ node,
      instruction.read text = some ([node], rest) ∧
        node.name = .instruction ∧ Statement.ofNode node = statement := by
  have splits := (Statement.instruction_of_read? found).2
  unfold Statement.read? at found
  split at found
  · simp at found
  · rename_i cut mnemonicFound
    obtain ⟨nodes, readOperands, operands, names⟩ := read_someOperands cut.rest
    generalize Statement.readOperands cut.rest = separated at found readOperands operands
    obtain ⟨separated, left⟩ := separated
    obtain ⟨rfl, rfl⟩ := Prod.mk.inj (Option.some.inj found)
    have body :
        (sequence mnemonic (optional (sequence (atLeastOnce blank) Rules.operands))).read text =
          some (.leaf .mnemonic cut.token :: nodes, left) := by
      rw [read_sequence, read_mnemonic, mnemonicFound, Option.map_some, Reading.andThen_some,
        readOperands]
      rfl
    rw [← splits] at body ⊢
    refine ⟨_, read_rule_of_some body .instruction, rfl, ?_⟩
    rw [Statement.ofNode, Node.inner_mk, List.foldl_cons, foldl_noteNode names]
    simp [Statement.noteNode, operands]

theorem read_instruction_of_none
    {text : Text}
    (missing : Statement.read? text = none) :
    instruction.read text = none := by
  apply read_of_run_none 0
  rw [run_instruction, missing]
  rfl

/-! ## Lines -/

/-- Blanks and comments leave no nodes, and they are skipped once. -/
theorem read_skip (text : Text) :
    ∃ rest, skip.read text = some ([], rest) ∧ skip.read rest = some ([], rest) := by
  obtain ⟨⟨position, rest⟩, skipped, skippedAgain⟩ := run_skip ⟨0, text⟩
  exact ⟨rest, read_of_silent (by decide) (congrArg Attempt.next? skipped),
    read_of_silent (by decide) (congrArg Attempt.next? skippedAgain)⟩

/-- What is skipped on one line leaves no nodes. -/
theorem read_skip_line
    {text : Text}
    (oneLine : text.IsOneLine) :
    skip.read text = some ([], Token.skip text) := by
  obtain ⟨next, skipped, left, _⟩ := run_skip_line oneLine 0
  rw [← left]
  exact read_of_silent (by decide) (congrArg Attempt.next? skipped)

/-- A label leaves one node, which stands for the label that is read. -/
theorem read_label_of_some
    {text : Text}
    {cut : Token.Cut}
    (found : Token.label? text = some cut) :
    ∃ node,
      label.read text = some ([node], cut.rest) ∧
        ∀ number, Item.ofNode number node = [.label number cut.token] := by
  unfold Token.label? at found
  split at found
  · rename_i name rest identifierFound
    have splits := Token.identifier?_splits identifierFound
    obtain rfl := Option.some.inj found
    have body :
        (sequence identifier (exactly ':')).read text = some ([.leaf .identifier name], rest) := by
      rw [read_sequence, read_identifier, identifierFound, Option.map_some, Reading.andThen_some,
        read_exactly_cons]
      rfl
    have whole : text = (name ++ [':']) ++ rest := by
      simpa [Token.Cut.Splits] using splits.symm
    rw [whole] at body ⊢
    exact ⟨_, read_rule_of_some body .label, fun number => rfl⟩
  · simp at found

theorem read_label_of_none
    {text : Text}
    (missing : Token.label? text = none) :
    label.read text = none := by
  apply read_of_run_none 0
  rw [run_label_of_none missing]
  rfl

/-- A directive leaves one node without nodes in it. -/
theorem exists_read_directive (text : Text) :
    ∃ word rest, directive.read ('.' :: text) = some ([.leaf .directive word], rest) := by
  let afterDot := repetition (character fun c => c ≠ '\n' && c ≠ '\r' && c ≠ '#')
  obtain ⟨rest, inside⟩ :
      ∃ rest, (sequence (exactly '.') afterDot).read ('.' :: text) = some ([], rest) := by
    have ran :
        ((sequence (exactly '.') afterDot).run ⟨0, '.' :: text⟩).next?.isSome = true := by
      rw [run_sequence, run_exactly_cons, Attempt.andThen_fit, run_repetition_character]
      rfl
    obtain ⟨next, found⟩ := Option.isSome_iff_exists.mp ran
    exact ⟨next.rest, read_of_silent (by decide) found⟩
  obtain ⟨word, splits, _⟩ := exists_word_of_read inside
  rw [splits] at inside ⊢
  exact ⟨word, rest, read_rule_of_some inside .directive⟩

/-- A directive begins with a dot. -/
theorem read_directive_of_undotted
    {text : Text}
    (undotted : ∀ rest, text ≠ '.' :: rest) :
    directive.read text = none := by
  apply read_of_run_none 0
  rw [directive, run_rule, run_sequence, run_exactly_of_ne undotted]
  rfl

/-- A statement and what is skipped after it. -/
theorem read_body_of_undotted
    {text : Text}
    (undotted : ∀ rest, text ≠ '.' :: rest) :
    (sequence body skip).read text =
      ((instruction.read text).orElse (some ([], text))).andThen skip.read := by
  rw [read_sequence, body, read_optional, read_choice, read_directive_of_undotted undotted]
  rfl

/-- What stands after the labels of a line leaves nodes for its statement, if it has one. -/
theorem read_body
    {labels : List Text}
    {text : Text}
    {content : Content}
    (oneLine : text.IsOneLine)
    (said : Content.ofBody? labels text = some content) :
    ∃ nodes,
      (sequence body skip).read text = some (nodes, []) ∧
        content.labels = labels ∧
          ∀ number,
            nodes.flatMap (Item.ofNode number) =
              content.statement?.toList.map (.statement number) := by
  by_cases dotted : ∃ rest, text = '.' :: rest
  · obtain ⟨rest, rfl⟩ := dotted
    obtain rfl : ⟨labels, none⟩ = content := Option.some.inj said
    obtain ⟨word, after, readDirective⟩ := exists_read_directive rest
    obtain ⟨settled, skipped, _⟩ := read_skip after
    have whole :
        (sequence body skip).read ('.' :: rest) = some ([.leaf .directive word], settled) := by
      rw [read_sequence, body, read_optional, read_choice, readDirective, Reading.orElse,
        Reading.orElse, Option.some_or, Option.some_or, Reading.andThen_some, skipped]
      rfl
    obtain ⟨ended, ran, nothing⟩ := run_directive oneLine 0
    obtain ⟨nodes, found⟩ := exists_read_of_run (congrArg Attempt.next? ran)
    obtain ⟨_, rfl⟩ := Prod.mk.inj (Option.some.inj (whole.symm.trans found))
    rw [nothing] at whole
    exact ⟨_, whole, rfl, fun number => rfl⟩
  · have undotted : ∀ rest, text ≠ '.' :: rest := fun rest shape => dotted ⟨rest, shape⟩
    rw [read_body_of_undotted undotted]
    by_cases empty : text = []
    · subst empty
      obtain rfl : ⟨labels, none⟩ = content := Option.some.inj said
      have noStatement : Statement.read? [] = none := by
        simp [Statement.read?, Token.mnemonic?, Token.someRun?, Token.run]
      rw [read_instruction_of_none noStatement]
      have nothing := (Reading.andThen_silent [] skip.read).trans (read_skip_line oneLine)
      exact ⟨[], nothing, rfl, fun number => rfl⟩
    · rw [ofBody?_of_undotted empty undotted] at said
      obtain ⟨⟨statement, rest⟩, read, ended⟩ := Option.bind_eq_some_iff.mp said
      obtain ⟨nothing, same⟩ := Option.ite_none_right_eq_some.mp ended
      obtain rfl := Option.some.inj same
      obtain ⟨node, readInstruction, name, stands⟩ := read_instruction_of_some read
      have restOneLine : rest.IsOneLine := by
        rw [← (Statement.instruction_of_read? read).2] at oneLine
        exact (Text.isOneLine_append_iff.mp oneLine).2
      refine ⟨[node], ?_, rfl, fun number => ?_⟩
      · rw [readInstruction, Reading.orElse, Option.some_or, Reading.andThen_some,
          read_skip_line restOneLine, List.isEmpty_iff.mp nothing]
        rfl
      · simp [Item.ofNode, name, stands]

/-- From its labels on, a line leaves nodes for all that it says. -/
theorem read_labelled
    {text : Text}
    (oneLine : text.IsOneLine)
    (earlier : List Text)
    {content : Content}
    (said :
      Content.ofBody? (Content.readLabels earlier (Token.skip text)).1
          (Content.readLabels earlier (Token.skip text)).2 =
        some content) :
    ∃ nodes,
      labelled.read text = some (nodes, []) ∧
        ∀ number,
          earlier.reverse.map (.label number) ++ nodes.flatMap (Item.ofNode number) =
            Item.ofContent number content := by
  -- The induction is on the labels that the reader takes; what is skipped before each is not
  -- skipped again in the text, so the text is kept apart from what the reader goes on with.
  generalize start : Token.skip text = left at said
  fun_induction Content.readLabels earlier left generalizing text with
  | case1 earlier left noLabel =>
      subst start
      obtain ⟨nodes, readBody, labels, items⟩ := read_body (isOneLine_skip oneLine) said
      have failed : (sequence skip label).read text = none := by
        rw [read_sequence, read_skip_line oneLine, Reading.andThen_silent]
        exact read_label_of_none noLabel
      refine ⟨nodes, ?_, fun number => ?_⟩
      · rw [labelled, read_sequence, read_repetition_of_none failed, Reading.andThen_silent,
          read_sequence, read_skip_line oneLine, Reading.andThen_silent, readBody]
      · rw [items, Item.ofContent, labels]
  | case2 earlier left cut found inductionHypothesis =>
      subst start
      have restOneLine : cut.rest.IsOneLine := by
        have leftOneLine := isOneLine_skip oneLine
        rw [← (Token.identifier_of_label? found).2] at leftOneLine
        exact (Text.isOneLine_cons_iff.mp (Text.isOneLine_append_iff.mp leftOneLine).2).2
      obtain ⟨node, readLabel, stands⟩ := read_label_of_some found
      obtain ⟨nodes, readLater, items⟩ := inductionHypothesis restOneLine rfl said
      have fits : (sequence skip label).read text = some ([node], cut.rest) := by
        rw [read_sequence, read_skip_line oneLine, Reading.andThen_silent, readLabel]
      refine ⟨node :: nodes, ?_, fun number => ?_⟩
      · rw [labelled, read_repetition_sequence (by decide) fits, Reading.andThen_some, ← labelled,
          readLater]
        rfl
      · rw [← items number]
        simp [stands]

/-- A line is never missing, and its node holds the nodes of what is on it. -/
theorem exists_read_line (text : Text) :
    ∃ node left rest,
      (sequence skip line).read text = some ([node], left) ∧
        skip.read left = some ([], rest) ∧
          node.name = .line ∧ labelled.read text = some (node.inner, rest) := by
  obtain ⟨settled, skipped, _⟩ := read_skip text
  obtain ⟨next, _, ran, _⟩ := exists_run_line ⟨0, settled⟩
  obtain ⟨nodes, inside⟩ := exists_read_of_run (congrArg Attempt.next? ran)
  obtain ⟨word, splits, _⟩ := exists_word_of_read inside
  obtain ⟨rest, skippedAgain, _⟩ := read_skip next.rest
  have readLine : line.read settled = some ([.mk .line word nodes], next.rest) := by
    rw [splits] at inside ⊢
    exact read_rule_of_some inside .line
  refine ⟨.mk .line word nodes, next.rest, rest, ?_, skippedAgain, rfl, ?_⟩
  · rw [read_sequence, skipped, Reading.andThen_silent, readLine]
  · -- The rule of a line has its blanks between the labels, `labelled` has them before each.
    have unspaced := read_spaced read_skip (by decide : 0 < label.least) (sequence body skip) text
    rw [labelled, ← unspaced, read_sequence, skipped, Reading.andThen_silent,
      ← read_sequence_congr (read_sequence_assoc skip body skip), ← read_sequence_assoc,
      read_sequence, inside, Reading.andThen_some, skippedAgain]
    simp

/-! ## Lines one after the other -/

/-- The node of a line stands for the items of what the line says, under any number. -/
def StandsFor (node : Node) (content : Content) : Prop :=
  node.name = .line ∧
    ∀ number, node.inner.flatMap (Item.ofNode number) = Item.ofContent number content

/-- A line that can be read leaves a node that says what the line says, whatever follows it. -/
theorem read_line_of_accepted
    {text after : Text}
    {content : Content}
    (oneLine : text.IsOneLine)
    (breaks : Breaks after)
    (said : Content.ofLine? text = some content) :
    ∃ node left,
      (sequence skip line).read (text ++ after) = some ([node], left) ∧
        skip.read left = some ([], after) ∧ StandsFor node content := by
  obtain ⟨node, left, rest, readLine, skipped, name, inside⟩ := exists_read_line (text ++ after)
  -- A line by itself is read to its end; as part of a longer text it leaves the same nodes.
  obtain ⟨nodes, alone, items⟩ := read_labelled oneLine [] said
  rw [read_append (by decide) breaks, alone] at inside
  obtain ⟨rfl, rfl⟩ := Prod.mk.inj (Option.some.inj inside)
  exact ⟨node, left, readLine, skipped, name, items⟩

/-- The nodes of the lines are those of the first line and those of the later ones. -/
theorem read_lines
    {text left : Text}
    {nodes : List Node}
    (readLine : (sequence skip line).read text = some (nodes, left)) :
    lines.read text = Reading.andThen (some (nodes, left)) laterLines.read := by
  rw [lines, ← read_sequence_assoc, read_sequence, readLine]

/-- Where no line break follows a line, the text has to end. -/
theorem read_lines_of_noBreak
    {text left rest : Text}
    {nodes : List Node}
    (readLine : (sequence skip line).read text = some (nodes, left))
    (skipped : skip.read left = some ([], rest))
    (noBreak : newline.read rest = none) :
    lines.read text = Reading.andThen (some (nodes, rest)) endOfText.read := by
  have failed : (sequence skip nextLine).read left = none := by
    rw [read_sequence, skipped, Reading.andThen_silent, nextLine, read_sequence, noBreak]
    rfl
  have last : laterLines.read left = endOfText.read rest := by
    rw [laterLines, read_sequence, read_repetition_of_none failed, Reading.andThen_silent,
      read_sequence, skipped, Reading.andThen_silent]
  rw [read_lines readLine, Reading.andThen_some, Reading.andThen_some, last]

/-- Where a line break follows a line, the lines after it leave their nodes after its own. -/
theorem read_lines_of_break
    {text left rest next : Text}
    {nodes : List Node}
    (readLine : (sequence skip line).read text = some (nodes, left))
    (skipped : skip.read left = some ([], rest))
    (isBreak : newline.read rest = some ([], next)) :
    lines.read text = Reading.andThen (some (nodes, next)) lines.read := by
  obtain ⟨node, nextLeft, _, readNext, _⟩ := exists_read_line next
  have fits : (sequence skip nextLine).read left = some ([node], nextLeft) := by
    rw [read_sequence, skipped, Reading.andThen_silent, nextLine, read_sequence, isBreak,
      Reading.andThen_silent, readNext]
  have later : laterLines.read left = lines.read next := by
    rw [read_lines readNext, laterLines, read_repetition_sequence (by decide) fits]
  rw [read_lines readLine, Reading.andThen_some, Reading.andThen_some, later]

/-- Lines that can all be read leave a node each, and the end of the text leaves the last one. -/
theorem read_lines_of_contents
    {all : List Line}
    (areLines : Line.AreLines all)
    {contents : List Content}
    (said : all.map (fun line => Content.ofLine? line.text) = contents.map some) :
    ∃ nodes,
      lines.read (Line.join all) = some (nodes ++ [.leaf .endOfText []], []) ∧
        List.Forall₂ StandsFor nodes contents := by
  induction areLines generalizing contents with
  | @final text oneLine =>
      cases contents with
      | nil => simp at said
      | cons content others =>
          obtain ⟨saidLine, saidLater⟩ := List.cons.inj said
          obtain rfl : others = [] := by simpa using saidLater.symm
          obtain ⟨node, left, readLine, skipped, stands⟩ :=
            read_line_of_accepted oneLine (by simp [Breaks] : Breaks []) saidLine
          refine ⟨[node], ?_, .cons stands .nil⟩
          rw [Line.join_cons]
          exact read_lines_of_noBreak readLine skipped rfl
  | @more line later oneLine ended apart areLines inductionHypothesis =>
      cases contents with
      | nil => simp at said
      | cons content others =>
          obtain ⟨saidLine, saidLater⟩ := List.cons.inj said
          have breaks := breaks_of_areLines (.more oneLine ended apart areLines)
          obtain ⟨node, left, readLine, skipped, stands⟩ :=
            read_line_of_accepted oneLine breaks saidLine
          obtain ⟨nodes, readLater, allStand⟩ := inductionHypothesis saidLater
          have isBreak :
              newline.read (line.ending.text ++ Line.join later) = some ([], Line.join later) :=
            read_of_silent (by decide) (congrArg Attempt.next?
              (run_newline_of_ending ended (fun carriage => areLines.noFeed (apart carriage)) 0))
          refine ⟨node :: nodes, ?_, .cons stands allStand⟩
          rw [Line.join_cons, read_lines_of_break readLine skipped isBreak, Reading.andThen_some,
            readLater]
          rfl

/-- A text whose lines can all be read leaves one node, with a node for each of its lines. -/
theorem read_program_of_contents
    {source : Text}
    {contents : List Content}
    (said :
      (Line.split source).map (fun line => Content.ofLine? line.text) = contents.map some) :
    ∃ nodes,
      program.read source = some ([.mk .program source (nodes ++ [.leaf .endOfText []])], []) ∧
        List.Forall₂ StandsFor nodes contents := by
  obtain ⟨nodes, inside, allStand⟩ := read_lines_of_contents (Line.areLines_split source) said
  rw [Line.join_split] at inside
  refine ⟨nodes, ?_, allStand⟩
  have unspaced :=
    read_sequence_congr
      (read_sequence_congr (read_spaced read_skip (by decide : 0 < nextLine.least) endOfText) line)
      skip source
  have body := unspaced.trans inside
  rw [← List.append_nil source] at body
  have whole := read_rule_of_some body .program
  rw [List.append_nil] at whole
  exact whole

/-- A source text that the grammar rejects has no parse tree. -/
theorem read_program_of_rejected
    {source : Text}
    (rejected : Rejects source) :
    program.read source = none :=
  read_of_run_none 0 rejected

end Peg.Rules

/-! ## Items -/

namespace Item

open Peg.Rules

/-- The nodes of lines stand for the items of what the lines say, with the number of each. -/
theorem flatMap_ofNode
    {nodes : List Node}
    {contents : List Content}
    (allStand : List.Forall₂ StandsFor nodes contents)
    (start : Nat) :
    ((nodes.zipIdx start).flatMap fun (line, number) => line.inner.flatMap (ofNode number)) =
      ofContents start contents := by
  induction allStand generalizing start with
  | nil => rfl
  | cons stands _ inductionHypothesis =>
      rw [List.zipIdx_cons, List.flatMap_cons, inductionHypothesis]
      exact congrArg (· ++ _) (stands.2 start)

/-- The lines of a program are all of its nodes but the one for the end of the text. -/
theorem filter_line
    {nodes : List Node}
    {contents : List Content}
    (allStand : List.Forall₂ StandsFor nodes contents) :
    ((nodes ++ [Node.leaf .endOfText []]).filter fun node => node.name = .line) = nodes := by
  induction allStand with
  | nil => rfl
  | cons stands _ inductionHypothesis =>
      rw [List.cons_append, List.filter_cons_of_pos (by simp [stands.1]), inductionHypothesis]

/-- What the reader refuses, the grammar rejects. -/
theorem rejects_of_ofText
    {source : Text}
    {error : SyntaxError}
    (rejected : ofText source = .error error) :
    Rejects source := by
  rw [← not_accepts_iff]
  intro accepted
  simp only [ofText] at rejected
  split at rejected
  · rename_i index found
    obtain ⟨inside, isNone, _⟩ := List.findIdx?_eq_some_iff_getElem.mp found
    have isSome := accepts_iff.mp accepted _ (List.getElem_mem inside)
    rw [Option.isNone_iff_eq_none.mp isNone] at isSome
    simp at isSome
  · simp at rejected

/--
The grammar has a parse tree for a source text exactly if the text has items, and these are
the items that the tree stands for.
-/
theorem toOption_ofText (source : Text) :
    (ofText source).toOption =
      (program.read source).map fun (nodes, _) => ofNodes nodes := by
  cases read : ofText source with
  | error error =>
      rw [read_program_of_rejected (rejects_of_ofText read)]
      rfl
  | ok items =>
      obtain ⟨contents, said, rfl⟩ := ofText_eq_ok_iff.mp read
      obtain ⟨nodes, readProgram, allStand⟩ := read_program_of_contents said
      rw [readProgram]
      simp only [Option.map_some, ofNodes, ofProgram, Node.inner_mk, filter_line allStand,
        flatMap_ofNode allStand]
      rfl

end Item

end TinyMips
