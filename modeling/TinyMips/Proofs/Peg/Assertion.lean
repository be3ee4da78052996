import TinyMips.Proofs.Assertion.Form
import TinyMips.Proofs.Peg.Items

namespace TinyMips

/-!
# Assertions from parse trees

What the nodes in the parse tree of an assertion say. There is a tree exactly if the parts
of an assertion can be read, and the parts that its nodes stand for are those.
-/

open Peg

/-! ## What nodes say -/

/-- The block that a text names, if it names one. -/
def Block.ofText? (text : Text) : Option Block :=
  [registers, memory].find? fun block => block.name = text

/-- The operation that a text stands for; what is no other operation is an exclusive or. -/
def Combinator.ofText (text : Text) : Combinator :=
  if text = [and.symbol] then .and
  else if text = [or.symbol] then .or
  else .xor

namespace AssertionParts

/-- The parts that the node of an assertion stands for. -/
def ofNode? (assertion : Node) : Option AssertionParts :=
  match assertion.inner.filter fun node => node.name ≠ .endOfText with
  | block :: index :: first :: others => do
      let block ← Block.ofText? block.text
      match others with
      | [] => return ⟨block, index.text, ⟨first.text, none⟩⟩
      | combinator :: second :: _ =>
          return ⟨block, index.text,
            ⟨first.text, some (Combinator.ofText combinator.text, second.text)⟩⟩
      | [_] => none
  | _ => none

/-- The parts that are left of a text. -/
def ofNodes? : List Node → Option AssertionParts
  | [] => none
  | assertion :: _ => ofNode? assertion

end AssertionParts

/-! ## The nodes of what is read -/

/-- The nodes for an operation and the integer after it. -/
def Combinator.nodes (combinator : Combinator) (second : Text) : List Node :=
  [.leaf .combinator [combinator.symbol], .leaf .integer second]

/-- The nodes for what an assertion expects. -/
def Expectation.nodes (expectation : Expectation) : List Node :=
  .leaf .integer expectation.first ::
    match expectation.second? with
    | none => []
    | some (combinator, second) => combinator.nodes second

/-- The nodes for the parts of an assertion, and the one for the end of its text. -/
def AssertionParts.nodes (parts : AssertionParts) : List Node :=
  .leaf .block parts.block.name :: .leaf .integer parts.index ::
    (parts.expectation.nodes ++ [.leaf .endOfText []])

/-- A block is found again under its own name. -/
theorem Block.ofText?_name (block : Block) : ofText? block.name = some block := by
  cases block <;> decide

theorem Combinator.ofText_symbol (combinator : Combinator) :
    ofText [combinator.symbol] = combinator := by
  cases combinator <;> decide

namespace AssertionParts

/-- The nodes for the parts of an assertion stand for these parts. -/
theorem ofNode?_nodes
    (text : Text)
    (parts : AssertionParts) :
    ofNode? (.mk .assertion text parts.nodes) = some parts := by
  obtain ⟨block, index, first, second?⟩ := parts
  cases second? with
  | none => simp [ofNode?, nodes, Expectation.nodes, Block.ofText?_name]
  | some second =>
      obtain ⟨combinator, second⟩ := second
      simp [ofNode?, nodes, Expectation.nodes, Combinator.nodes, Block.ofText?_name,
        Combinator.ofText_symbol]

end AssertionParts

namespace Peg.Rules

open Expression AssertionParts

/-! ## Wording and blanks -/

/-- Wording is taken as a prefix is dropped, and leaves no node. -/
theorem read_wording
    (word text : Text) :
    (wording word).read text = (Text.dropPrefix? word text).map fun rest => ([], rest) := by
  induction word generalizing text with
  | nil => rfl
  | cons first word inductionHypothesis =>
      cases text with
      | nil => rfl
      | cons c text =>
          rw [wording, read_sequence, Text.dropPrefix?]
          by_cases same : c = first
          · subst same
            rw [read_exactly_cons, Reading.andThen_silent, inductionHypothesis, if_pos rfl]
          · have differs : ∀ rest, c :: text ≠ first :: rest :=
              fun rest shape => same (List.cons.inj shape).1
            rw [if_neg same, read_exactly_of_ne differs]
            rfl

theorem read_blanks (text : Text) :
    (repetition blank).read text = some ([], skipBlanks text) :=
  read_run Text.isBlank text

theorem read_oneBlank (text : Text) :
    (optional blank).read text = some ([], skipOneBlank text) := by
  rw [read_optional, blank]
  cases text with
  | nil => rfl
  | cons c text =>
      rw [skipOneBlank, Expression.read]
      split <;> rfl

/-- A block leaves one node, which holds its name. -/
theorem read_block (text : Text) :
    block.read text =
      (block? text).map fun (block, rest) => ([.leaf .block block.name], rest) := by
  have body :
      (choice (wording (Text.ofString "rf")) (wording (Text.ofString "d_mem"))).read text =
        (block? text).map fun (_, rest) => ([], rest) := by
    rw [read_choice, read_wording, read_wording, block?]
    change Reading.orElse ((Text.dropPrefix? Block.registers.name text).map _)
      ((Text.dropPrefix? Block.memory.name text).map _) = _
    cases Text.dropPrefix? Block.registers.name text with
    | some rest => rfl
    | none => cases Text.dropPrefix? Block.memory.name text <;> rfl
  cases found : block? text with
  | none =>
      rw [block, Expression.read, body, found]
      rfl
  | some named =>
      obtain ⟨name, rest⟩ := named
      rw [found] at body
      obtain rfl := block?_eq_some_iff.mp found
      exact read_rule_of_some body .block

/-! ## Integers -/

/-- What follows the mark of base sixteen is read where the mark is. -/
theorem read_marked
    (later : Expression)
    (text : Text) :
    (sequence (exactly '0') (sequence (choice (exactly 'x') (exactly 'X')) later)).read text =
      (Numeral.hexBody? text).bind later.read := by
  rw [read_sequence]
  by_cases zero : ∃ rest, text = '0' :: rest
  · obtain ⟨rest, rfl⟩ := zero
    rw [read_exactly_cons, Reading.andThen_silent, read_sequence, read_choice]
    by_cases lower : ∃ body, rest = 'x' :: body
    · obtain ⟨body, rfl⟩ := lower
      rw [read_exactly_cons]
      exact Reading.andThen_silent body later.read
    · rw [read_exactly_of_ne fun body shape => lower ⟨body, shape⟩]
      by_cases upper : ∃ body, rest = 'X' :: body
      · obtain ⟨body, rfl⟩ := upper
        rw [read_exactly_cons]
        exact Reading.andThen_silent body later.read
      · have unmarked : Numeral.hexBody? ('0' :: rest) = none := by
          rw [Option.eq_none_iff_forall_ne_some]
          intro body marked
          obtain ⟨mark, isMark, shape⟩ := Token.hexBody?_eq_some_iff.mp marked
          obtain ⟨_, rfl⟩ := List.cons.inj shape
          rcases isMark with rfl | rfl
          · exact lower ⟨body, rfl⟩
          · exact upper ⟨body, rfl⟩
        rw [read_exactly_of_ne fun body shape => upper ⟨body, shape⟩, unmarked]
        rfl
  · have unmarked : Numeral.hexBody? text = none := by
      rw [Option.eq_none_iff_forall_ne_some]
      intro body marked
      obtain ⟨mark, _, rfl⟩ := Token.hexBody?_eq_some_iff.mp marked
      exact zero ⟨mark :: body, rfl⟩
    rw [read_exactly_of_ne fun rest shape => zero ⟨rest, shape⟩, unmarked]
    rfl

/-- The digits of an integer, in either base, leave no node of their own. -/
theorem read_digits (text : Text) :
    (choice
        (sequence (exactly '0')
          (sequence (choice (exactly 'x') (exactly 'X')) (atLeastOnce (character Text.isHexDigit))))
        (atLeastOnce (character Char.isDigit))).read text =
      (digits? text).map fun cut => ([], cut.rest) := by
  have hexadecimal :
      ((Numeral.hexBody? text).bind (atLeastOnce (character Text.isHexDigit)).read : Reading) =
        ((Numeral.hexBody? text).bind (Token.someRun? Text.isHexDigit)).map
          fun cut => ([], cut.rest) := by
    rw [funext (read_someRun Text.isHexDigit), Option.map_bind]
    rfl
  rw [read_choice, read_marked, hexadecimal, read_someRun, digits?]
  cases (Numeral.hexBody? text).bind (Token.someRun? Text.isHexDigit) <;> rfl

/-- An integer leaves one node, with its minus sign and its digits. -/
theorem read_integer (text : Text) :
    integer.read text =
      (integer? text).map fun cut => ([.leaf .integer cut.token], cut.rest) := by
  refine read_rule_of_cut ?_ (fun _ found => (integer_of_integer? found).2) .integer
  rw [read_sequence, read_optional]
  by_cases minus : ∃ body, text = '-' :: body
  · obtain ⟨body, rfl⟩ := minus
    rw [read_exactly_cons, integer?, Option.map_map]
    exact (Reading.andThen_silent body _).trans (read_digits body)
  · have unsigned : integer? text = digits? text := by
      rw [integer?]
      exact fun body shape => minus ⟨body, shape⟩
    rw [read_exactly_of_ne fun body shape => minus ⟨body, shape⟩, unsigned]
    exact (Reading.andThen_silent text _).trans (read_digits text)

/-! ## Expectations -/

/-- The character of an operation leaves one node; any other character fails. -/
theorem read_combinator_cons
    (c : Char)
    (text : Text) :
    combinator.read (c :: text) =
      (Combinator.ofSymbol? c).map fun combinator =>
        ([.leaf .combinator [combinator.symbol]], text) := by
  let symbols := choice (exactly '&') (choice (exactly '|') (exactly '^'))
  cases found : Combinator.ofSymbol? c with
  | some operation =>
      obtain rfl := Combinator.ofSymbol?_eq_some_iff.mp found
      have body : symbols.read ([operation.symbol] ++ text) = some ([], text) := by
        cases operation <;> rfl
      exact read_rule_of_some body .combinator
  | none =>
      have differs (operation : Combinator) : ∀ rest, c :: text ≠ operation.symbol :: rest := by
        intro rest shape
        obtain ⟨rfl, _⟩ := List.cons.inj shape
        simp [Combinator.ofSymbol?_eq_some_iff.mpr rfl] at found
      have noAnd : (exactly '&').read (c :: text) = none := read_exactly_of_ne (differs .and)
      have noOr : (exactly '|').read (c :: text) = none := read_exactly_of_ne (differs .or)
      have noXor : (exactly '^').read (c :: text) = none := read_exactly_of_ne (differs .xor)
      have body : symbols.read (c :: text) = none := by
        rw [read_choice, read_choice, noAnd, noOr, noXor]
        rfl
      rw [combinator, Expression.read, body]
      rfl

/--
The part after a first integer leaves two nodes, one for the operation and one for the
integer.
-/
theorem read_second (text : Text) :
    second.read text =
      (second? text).map fun ((combinator, second), rest) => (combinator.nodes second, rest) := by
  rw [second, read_sequence, read_oneBlank, Reading.andThen_silent, second?]
  cases skipOneBlank text with
  | nil => rfl
  | cons c rest =>
      dsimp only
      rw [read_sequence, read_combinator_cons]
      cases Combinator.ofSymbol? c with
      | none => rfl
      | some combinator =>
          rw [Option.map_some, Reading.andThen_some, read_sequence, read_blanks,
            Reading.andThen_silent, read_integer]
          cases integer? (skipBlanks rest) <;> rfl

/-- An expectation leaves the nodes for its integers and for the operation between them. -/
theorem read_expectation (text : Text) :
    expectation.read text =
      (expectation? text).map fun (expectation, rest) => (expectation.nodes, rest) := by
  rw [expectation, read_sequence, read_integer, expectation?]
  cases integer? text with
  | none => rfl
  | some first =>
      rw [Option.map_some, Reading.andThen_some, read_optional, read_second]
      cases found : second? first.rest with
      | none =>
          simp only [Option.bind_eq_bind, Option.bind_some, found]
          rfl
      | some second =>
          simp only [Option.bind_eq_bind, Option.bind_some, found]
          rfl

/-! ## Whole assertions -/

/-- What comes after given wording is read where the wording ends. -/
theorem read_wording_sequence
    (word : String)
    (later : Expression)
    (text : Text) :
    (sequence (wording (Text.ofString word)) later).read text =
      (expect? word text).bind later.read := by
  rw [read_sequence, read_wording, expect?]
  cases Text.dropPrefix? (Text.ofString word) text with
  | none => rfl
  | some rest => exact Reading.andThen_silent rest later.read

theorem read_blanks_sequence
    (later : Expression)
    (text : Text) :
    (sequence (repetition blank) later).read text = later.read (skipBlanks text) := by
  rw [read_sequence, read_blanks, Reading.andThen_silent]

theorem read_endOfText (text : Text) :
    endOfText.read text = if text.isEmpty then some ([.leaf .endOfText []], []) else none := by
  rw [Expression.read]

/-- The wording of an assertion leaves the nodes for its parts, in order, and no text. -/
theorem read_assertionBody (text : Text) :
    assertionBody.read text = (AssertionParts.read? text).map fun parts => (parts.nodes, []) := by
  -- Both sides take the same parts in the same order, so they are compared part by part.
  simp only [assertionBody, AssertionParts.read?, Option.bind_eq_bind, Option.map_bind,
    Function.comp_def, read_wording_sequence]
  refine Option.bind_congr fun text _ => ?_
  rw [read_blanks_sequence, read_wording_sequence]
  refine Option.bind_congr fun text _ => ?_
  rw [read_sequence, read_block, Reading.andThen_map]
  refine Option.bind_congr fun named _ => ?_
  obtain ⟨block, text⟩ := named
  simp only [read_wording_sequence, Option.map_bind, Function.comp_def]
  refine Option.bind_congr fun text _ => ?_
  simp only [read_sequence integer, read_integer, Reading.andThen_map, Option.map_bind,
    Function.comp_def]
  refine Option.bind_congr fun index _ => ?_
  simp only [read_wording_sequence, Option.map_bind, Function.comp_def]
  refine Option.bind_congr fun text _ => ?_
  simp only [read_blanks_sequence, read_wording_sequence, Option.map_bind, Function.comp_def]
  refine Option.bind_congr fun text _ => ?_
  simp only [read_blanks_sequence, read_sequence expectation, read_expectation,
    Reading.andThen_map, Option.map_bind, Function.comp_def]
  refine Option.bind_congr fun expected _ => ?_
  obtain ⟨expectation, text⟩ := expected
  simp only [read_wording_sequence, Option.map_bind, Function.comp_def]
  refine Option.bind_congr fun text _ => ?_
  rw [read_endOfText]
  split <;> rfl

/-- The parse tree of an assertion has the nodes for the parts that are read. -/
theorem read_assertion (text : Text) :
    assertion.read text =
      (AssertionParts.read? text).map fun parts =>
        ([.mk .assertion text parts.nodes], []) := by
  have body := read_assertionBody text
  cases found : AssertionParts.read? text with
  | none =>
      rw [found] at body
      rw [assertion, Expression.read, body]
      rfl
  | some parts =>
      rw [found, ← List.append_nil text] at body
      have whole := read_rule_of_some body .assertion
      rwa [List.append_nil] at whole

end Peg.Rules

/--
The grammar has a parse tree for the text of an assertion exactly if the parts of one can be
read, and these are the parts that the tree stands for.
-/
theorem AssertionParts.read?_eq_bind_read (text : Text) :
    read? text = (Rules.assertion.read text).bind fun (nodes, _) => ofNodes? nodes := by
  rw [Rules.read_assertion]
  cases read? text with
  | none => rfl
  | some parts => exact (ofNode?_nodes text parts).symm

end TinyMips
