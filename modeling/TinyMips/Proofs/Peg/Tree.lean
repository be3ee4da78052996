import TinyMips.Proofs.Peg.Rules

namespace TinyMips.Peg

/-!
# Parse trees

A rule that fits leaves a node: its name, the word that it took, and the nodes of the
rules inside it, in order. An expression without a name leaves the nodes of its parts, and
one that is only looked for leaves none. Reading for nodes takes the words that trying the
expression takes, and what lies after a line does not show in them.
-/

/-- What a rule made of a text. -/
inductive Node where
  | mk (name : RuleName) (text : Text) (inner : List Node)

namespace Node

/-- The rule that left the node. -/
def name : Node → RuleName
  | mk name _ _ => name

/-- The word that the rule took. -/
def text : Node → Text
  | mk _ text _ => text

/-- The nodes of the rules inside the rule. -/
def inner : Node → List Node
  | mk _ _ inner => inner

/-- A node of a rule that has no rules inside it. -/
def leaf (name : RuleName) (text : Text) : Node :=
  mk name text []

section

variable (name : RuleName) (text : Text) (inner : List Node)

@[simp]
theorem name_mk : (mk name text inner).name = name :=
  rfl

@[simp]
theorem text_mk : (mk name text inner).text = text :=
  rfl

@[simp]
theorem inner_mk : (mk name text inner).inner = inner :=
  rfl

@[simp]
theorem name_leaf : (leaf name text).name = name :=
  rfl

@[simp]
theorem text_leaf : (leaf name text).text = text :=
  rfl

end

end Node

/-- The nodes that an expression leaves and the text after it, if it fits. -/
abbrev Reading := Option (List Node × Text)

namespace Reading

/-- A reading and another one of the text after it, with the nodes of both. -/
def andThen (reading : Reading) (later : Text → Reading) : Reading :=
  reading.bind fun (nodes, rest) => (later rest).map fun (more, last) => (nodes ++ more, last)

/-- A reading, or another one of the same text where it fails. -/
def orElse (reading other : Reading) : Reading :=
  Option.or reading other

theorem andThen_none (later : Text → Reading) :
    andThen none later = none :=
  rfl

/-- After a reading that fits, the nodes of the later one come behind its own. -/
theorem andThen_some
    (nodes : List Node)
    (rest : Text)
    (later : Text → Reading) :
    andThen (some (nodes, rest)) later =
      (later rest).map fun (more, last) => (nodes ++ more, last) :=
  rfl

/-- What takes a word without leaving a node is followed by the later reading as it is. -/
@[simp]
theorem andThen_silent
    (rest : Text)
    (later : Text → Reading) :
    andThen (some ([], rest)) later = later rest := by
  simp [andThen]

/-- After what is read with its nodes, the later reading begins where it ends. -/
theorem andThen_map
    {α : Type}
    (found? : Option α)
    (nodes : α → List Node)
    (rest : α → Text)
    (later : Text → Reading) :
    andThen (found?.map fun found => (nodes found, rest found)) later =
      found?.bind fun found =>
        (later (rest found)).map fun (more, last) => (nodes found ++ more, last) := by
  cases found? <;> rfl

/-- Three readings in a row may be grouped either way. -/
theorem andThen_andThen
    (reading : Reading)
    (second third : Text → Reading) :
    (reading.andThen second).andThen third =
      reading.andThen fun rest => (second rest).andThen third := by
  cases reading with
  | none => rfl
  | some found =>
      obtain ⟨nodes, rest⟩ := found
      rw [andThen_some, andThen_some]
      cases second rest with
      | none => rfl
      | some second =>
          obtain ⟨more, later⟩ := second
          rw [Option.map_some, andThen_some, andThen_some, Option.map_map]
          exact Option.map_congr fun _ _ => by simp

end Reading

/-- A reading made again and again, until it fails or takes nothing. -/
def readAll
    (read : Text → Reading)
    (text : Text) :
    Reading :=
  match read text with
  | none => some ([], text)
  | some (nodes, rest) =>
      if rest.length < text.length then
        (readAll read rest).map fun (more, last) => (nodes ++ more, last)
      else
        some (nodes, rest)
  termination_by text.length

/-- Repetition ends where the reading fails. -/
theorem readAll_of_none
    {read : Text → Reading}
    {text : Text}
    (failed : read text = none) :
    readAll read text = some ([], text) := by
  rw [readAll, failed]

/-- Repetition goes on where the reading has taken something. -/
theorem readAll_of_some
    {read : Text → Reading}
    {text rest : Text}
    {nodes : List Node}
    (found : read text = some (nodes, rest))
    (progress : rest.length < text.length) :
    readAll read text =
      (readAll read rest).map fun (more, last) => (nodes ++ more, last) := by
  rw [readAll, found]
  simp [progress]

namespace Expression

/-- Read the nodes that an expression leaves at the front of a text. -/
def read : Expression → Text → Reading
  | empty, text => some ([], text)
  | character _, [] => none
  | character inClass, c :: text => if inClass c then some ([], text) else none
  | endOfText, text => if text.isEmpty then some ([.leaf .endOfText []], []) else none
  | sequence first second, text => (first.read text).andThen second.read
  | choice first second, text => (first.read text).orElse (second.read text)
  | repetition body, text => readAll body.read text
  | absence body, text => if (body.read text).isNone then some ([], text) else none
  | rule name body, text =>
      (body.read text).map fun (nodes, rest) =>
        ([.mk name (text.take (text.length - rest.length)) nodes], rest)

theorem read_sequence
    (first second : Expression)
    (text : Text) :
    (sequence first second).read text = (first.read text).andThen second.read := by
  rw [read]

theorem read_choice
    (first second : Expression)
    (text : Text) :
    (choice first second).read text = (first.read text).orElse (second.read text) := by
  rw [read]

theorem read_optional
    (body : Expression)
    (text : Text) :
    (optional body).read text = (body.read text).orElse (some ([], text)) := by
  rw [optional, read_choice, read]

theorem read_exactly_cons
    (c : Char)
    (text : Text) :
    (exactly c).read (c :: text) = some ([], text) := by
  simp [exactly, read]

/-- A given character is not read where the text does not begin with it. -/
theorem read_exactly_of_ne
    {c : Char}
    {text : Text}
    (differs : ∀ rest, text ≠ c :: rest) :
    (exactly c).read text = none := by
  cases text with
  | nil => rfl
  | cons first text =>
      have other : first ≠ c := by
        rintro rfl
        exact differs text rfl
      simp [exactly, read, other]

/-- A rule leaves one node, with the word that it took and the nodes inside it. -/
theorem read_rule_of_some
    {body : Expression}
    {word rest : Text}
    {nodes : List Node}
    (found : body.read (word ++ rest) = some (nodes, rest))
    (name : RuleName) :
    (rule name body).read (word ++ rest) = some ([.mk name word nodes], rest) := by
  rw [read, found]
  simp

end Expression

/-! ## Reading and trying -/

/-- A reading fits where an attempt does, and leaves the same text. -/
def Reading.Follows (reading : Reading) (attempt : Attempt) : Prop :=
  reading.map Prod.snd = attempt.next?.map Cursor.rest

namespace Reading.Follows

/-- A reading fails exactly where the attempt that it follows fails. -/
theorem none_iff
    {reading : Reading}
    {attempt : Attempt}
    (follows : reading.Follows attempt) :
    reading = none ↔ attempt.next? = none := by
  rw [← Option.map_eq_none_iff (f := Prod.snd), follows, Option.map_eq_none_iff]

/-- Where the parts of a sequence are followed, so is the sequence. -/
theorem andThen
    {reading : Reading}
    {attempt : Attempt}
    {laterReading : Text → Reading}
    {later : Cursor → Attempt}
    (follows : reading.Follows attempt)
    (laterFollows : ∀ cursor, (laterReading cursor.rest).Follows (later cursor)) :
    (reading.andThen laterReading).Follows (attempt.andThen later) := by
  obtain ⟨next?, furthest⟩ := attempt
  cases next? with
  | none =>
      rw [none_iff follows |>.mpr rfl]
      rfl
  | some next =>
      obtain ⟨⟨nodes, rest⟩, rfl, rfl⟩ := Option.map_eq_some_iff.mp follows
      have later := laterFollows next
      simp only [Follows, andThen_some, Attempt.andThen_some, Option.map_map] at later ⊢
      exact later

theorem orElse
    {reading other : Reading}
    {attempt otherAttempt : Attempt}
    (follows : reading.Follows attempt)
    (otherFollows : other.Follows otherAttempt) :
    (reading.orElse other).Follows (attempt.orElse otherAttempt) := by
  obtain ⟨next?, furthest⟩ := attempt
  cases next? with
  | none =>
      rw [none_iff follows |>.mpr rfl]
      exact otherFollows
  | some next =>
      obtain ⟨found, rfl, _⟩ := Option.map_eq_some_iff.mp follows
      exact follows

end Reading.Follows

/-- Readings made again and again follow attempts made again and again. -/
theorem readAll_follows
    {read : Text → Reading}
    {attempt : Cursor → Attempt}
    (follows : ∀ cursor, (read cursor.rest).Follows (attempt cursor))
    (cursor : Cursor) :
    (readAll read cursor.rest).Follows (repeated attempt cursor) := by
  fun_induction repeated attempt cursor with
  | case1 cursor none =>
      rw [readAll_of_none ((follows cursor).none_iff.mpr none)]
      rfl
  | case2 cursor next found progress inductionHypothesis =>
      have one := follows cursor
      rw [Reading.Follows, found] at one
      obtain ⟨⟨nodes, rest⟩, read, rfl⟩ := Option.map_eq_some_iff.mp one
      rw [readAll_of_some read progress]
      simpa [Reading.Follows, Attempt.noting, Function.comp_def] using inductionHypothesis
  | case3 cursor next found stuck =>
      have one := follows cursor
      rw [Reading.Follows, found] at one
      obtain ⟨⟨nodes, rest⟩, read, rfl⟩ := Option.map_eq_some_iff.mp one
      rw [readAll, read]
      simp [Reading.Follows, found, stuck]

namespace Expression

/-- Reading for nodes fits where trying the expression fits, and leaves the same text. -/
theorem read_follows_run
    (expression : Expression)
    (cursor : Cursor) :
    (expression.read cursor.rest).Follows (expression.run cursor) := by
  induction expression generalizing cursor with
  | empty => rfl
  | character inClass =>
      obtain ⟨position, rest⟩ := cursor
      cases rest with
      | nil => rfl
      | cons c rest =>
          simp only [read, run]
          split <;> rfl
  | endOfText =>
      obtain ⟨position, rest⟩ := cursor
      cases rest with
      | nil => rfl
      | cons c rest => rfl
  | sequence first second firstHypothesis secondHypothesis =>
      rw [read_sequence, run_sequence]
      exact (firstHypothesis cursor).andThen secondHypothesis
  | choice first second firstHypothesis secondHypothesis =>
      rw [read_choice, run_choice]
      exact (firstHypothesis cursor).orElse (secondHypothesis cursor)
  | repetition body inductionHypothesis =>
      rw [read, run]
      exact readAll_follows inductionHypothesis cursor
  | absence body inductionHypothesis =>
      have sameAbsence : (body.read cursor.rest).isNone = (body.run cursor).next?.isNone := by
        rw [Bool.eq_iff_iff, Option.isNone_iff_eq_none, Option.isNone_iff_eq_none]
        exact (inductionHypothesis cursor).none_iff
      simp only [read, run, sameAbsence]
      split <;> rfl
  | rule name body inductionHypothesis =>
      have noNode : Reading.Follows none (.failed cursor.position) := rfl
      have either := (inductionHypothesis cursor).orElse noNode
      rw [Reading.orElse, Option.or_none] at either
      rw [read, run_rule]
      simpa [Reading.Follows, Function.comp_def] using either

/-- What is tried in vain is read in vain. -/
theorem read_of_run_none
    {expression : Expression}
    (position : Nat)
    {text : Text}
    (failed : (expression.run ⟨position, text⟩).next? = none) :
    expression.read text = none :=
  (read_follows_run expression ⟨position, text⟩).none_iff.mpr failed

/-- What is tried with success leaves some nodes, and the same text. -/
theorem exists_read_of_run
    {expression : Expression}
    {position : Nat}
    {text : Text}
    {next : Cursor}
    (found : (expression.run ⟨position, text⟩).next? = some next) :
    ∃ nodes, expression.read text = some (nodes, next.rest) := by
  have follows := read_follows_run expression ⟨position, text⟩
  rw [Reading.Follows, found] at follows
  obtain ⟨⟨nodes, rest⟩, read, rfl⟩ := Option.map_eq_some_iff.mp follows
  exact ⟨nodes, read⟩

/-- An expression takes a word from the front of a text, and its nodes lie in that word. -/
theorem exists_word_of_read
    {expression : Expression}
    {text rest : Text}
    {nodes : List Node}
    (found : expression.read text = some (nodes, rest)) :
    ∃ word : Text, text = word ++ rest ∧ expression.least ≤ word.length := by
  have follows := read_follows_run expression ⟨0, text⟩
  rw [Reading.Follows, found] at follows
  obtain ⟨next, reached, rfl⟩ := Option.map_eq_some_iff.mp follows.symm
  obtain ⟨word, splits, _, most⟩ := (takes_run expression ⟨0, text⟩).1 next reached
  exact ⟨word, splits, most⟩

/-! ## Expressions without rules -/

/-- No rule with a name takes part in what an expression takes. -/
def silent : Expression → Bool
  | empty => true
  | character _ => true
  | endOfText => false
  | sequence first second => first.silent && second.silent
  | choice first second => first.silent && second.silent
  | repetition body => body.silent
  | absence _ => true
  | rule _ _ => false

/-- Readings without nodes leave none when they are repeated. -/
theorem nodes_readAll
    {read : Text → Reading}
    (silent : ∀ text nodes rest, read text = some (nodes, rest) → nodes = [])
    {text rest : Text}
    {nodes : List Node}
    (found : readAll read text = some (nodes, rest)) :
    nodes = [] := by
  fun_induction readAll read text generalizing nodes rest with
  | case1 text none => simp_all
  | case2 text first left one progress inductionHypothesis =>
      obtain ⟨⟨more, last⟩, later, same⟩ := Option.map_eq_some_iff.mp found
      obtain ⟨rfl, rfl⟩ := Prod.mk.inj same
      rw [silent text first left one, inductionHypothesis later]
      rfl
  | case3 text first left one stuck =>
      obtain ⟨rfl, rfl⟩ := Prod.mk.inj (Option.some.inj found)
      exact silent text _ _ one

/-- An expression without rules leaves no nodes. -/
theorem nodes_of_silent
    {expression : Expression}
    (isSilent : expression.silent = true)
    {text rest : Text}
    {nodes : List Node}
    (found : expression.read text = some (nodes, rest)) :
    nodes = [] := by
  induction expression generalizing text rest nodes with
  | empty => simp_all [read]
  | character inClass =>
      cases text with
      | nil => simp [read] at found
      | cons c text => simp_all [read]
  | endOfText => simp [silent] at isSilent
  | sequence first second firstHypothesis secondHypothesis =>
      obtain ⟨firstSilent, secondSilent⟩ := Bool.and_eq_true_iff.mp isSilent
      rw [read_sequence] at found
      obtain ⟨⟨before, middle⟩, readFirst, later⟩ := Option.bind_eq_some_iff.mp found
      obtain ⟨⟨after, last⟩, readSecond, same⟩ := Option.map_eq_some_iff.mp later
      obtain ⟨rfl, rfl⟩ := Prod.mk.inj same
      rw [firstHypothesis firstSilent readFirst, secondHypothesis secondSilent readSecond]
      rfl
  | choice first second firstHypothesis secondHypothesis =>
      obtain ⟨firstSilent, secondSilent⟩ := Bool.and_eq_true_iff.mp isSilent
      rw [read_choice] at found
      rcases Option.or_eq_some_iff.mp found with readFirst | ⟨_, readSecond⟩
      · exact firstHypothesis firstSilent readFirst
      · exact secondHypothesis secondSilent readSecond
  | repetition body inductionHypothesis =>
      rw [read] at found
      exact nodes_readAll (fun _ _ _ => inductionHypothesis isSilent) found
  | absence body => simp_all [read]
  | rule name body => simp [silent] at isSilent

/-- What an expression without rules takes, it takes without leaving a node. -/
theorem read_of_silent
    {expression : Expression}
    (isSilent : expression.silent = true)
    {position : Nat}
    {text : Text}
    {next : Cursor}
    (found : (expression.run ⟨position, text⟩).next? = some next) :
    expression.read text = some ([], next.rest) := by
  obtain ⟨nodes, read⟩ := exists_read_of_run found
  rw [read, nodes_of_silent isSilent read]

end Expression

/-! ## Readings in a longer text -/

namespace Reading

/-- A reading of a line as a reading of a text in which more follows the line. -/
def before (after : Text) (reading : Reading) : Reading :=
  reading.map fun (nodes, rest) => (nodes, rest ++ after)

/-- Readings in a row may be taken in a longer text one by one. -/
theorem before_andThen
    {after : Text}
    (reading : Reading)
    {later longer : Text → Reading}
    (alike : ∀ rest, longer (rest ++ after) = (later rest).before after) :
    (reading.before after).andThen longer = (reading.andThen later).before after := by
  cases reading with
  | none => rfl
  | some found =>
      obtain ⟨nodes, rest⟩ := found
      simp only [before, Option.map_some, andThen_some, alike, Option.map_map]
      rfl

theorem before_orElse
    (after : Text)
    (reading other : Reading) :
    (reading.before after).orElse (other.before after) = (reading.orElse other).before after := by
  cases reading <;> rfl

end Reading

/-- Repeated readings that are alike one by one are alike as a whole. -/
theorem readAll_append
    {after : Text}
    {read : Text → Reading}
    (alike : ∀ text, read (text ++ after) = Reading.before after (read text))
    (text : Text) :
    readAll read (text ++ after) = Reading.before after (readAll read text) := by
  fun_induction readAll read text with
  | case1 text none =>
      rw [readAll_of_none (by rw [alike, none]; rfl)]
      rfl
  | case2 text nodes rest found progress inductionHypothesis =>
      have longer : read (text ++ after) = some (nodes, rest ++ after) := by
        rw [alike, found]
        rfl
      rw [readAll_of_some longer (by simpa using progress), inductionHypothesis]
      simp only [Reading.before, Option.map_map]
      rfl
  | case3 text nodes rest found stuck =>
      rw [readAll, alike, found]
      simp [Reading.before, stuck]

namespace Expression

/-- What follows a line does not show in the nodes of an expression within the line. -/
theorem read_append
    {expression : Expression}
    (withinLine : expression.withinLine = true)
    {after : Text}
    (breaks : Breaks after)
    (text : Text) :
    expression.read (text ++ after) = Reading.before after (expression.read text) := by
  induction expression generalizing text with
  | empty => rfl
  | character inClass =>
      obtain ⟨noFeed, noReturn⟩ : inClass '\n' = false ∧ inClass '\r' = false := by
        simpa [Expression.withinLine] using withinLine
      cases text with
      | cons c text =>
          simp only [List.cons_append, read]
          split <;> rfl
      | nil =>
          cases after with
          | nil => rfl
          | cons c after =>
              rcases breaks c rfl with rfl | rfl
              · simp [read, Reading.before, noFeed]
              · simp [read, Reading.before, noReturn]
  | endOfText => simp [Expression.withinLine] at withinLine
  | sequence first second firstHypothesis secondHypothesis =>
      obtain ⟨inFirst, inSecond⟩ := Bool.and_eq_true_iff.mp withinLine
      rw [read_sequence, read_sequence, firstHypothesis inFirst]
      exact Reading.before_andThen _ (secondHypothesis inSecond)
  | choice first second firstHypothesis secondHypothesis =>
      obtain ⟨inFirst, inSecond⟩ := Bool.and_eq_true_iff.mp withinLine
      rw [read_choice, read_choice, firstHypothesis inFirst, secondHypothesis inSecond]
      exact Reading.before_orElse after (first.read text) (second.read text)
  | repetition body inductionHypothesis =>
      rw [read, read]
      exact readAll_append (inductionHypothesis withinLine) text
  | absence body inductionHypothesis =>
      simp only [read, inductionHypothesis withinLine, Reading.before, Option.isNone_map]
      split <;> rfl
  | rule name body inductionHypothesis =>
      rw [read, inductionHypothesis withinLine]
      cases found : body.read text with
      | none => simp [read, Reading.before, found]
      | some left =>
          obtain ⟨nodes, rest⟩ := left
          obtain ⟨word, rfl, _⟩ := exists_word_of_read found
          rw [read_rule_of_some found name]
          simp [Reading.before]

/-! ## Repetitions with blanks between -/

theorem read_sequence_assoc
    (first second third : Expression)
    (text : Text) :
    (sequence (sequence first second) third).read text =
      (sequence first (sequence second third)).read text := by
  simp only [read_sequence]
  rw [Reading.andThen_andThen]
  exact congrArg _ (funext fun rest => (read_sequence second third rest).symm)

/-- The second part of a sequence may be replaced by one that leaves the same nodes. -/
theorem read_sequence_congr
    {second other : Expression}
    (alike : ∀ text, second.read text = other.read text)
    (first : Expression)
    (text : Text) :
    (sequence first second).read text = (sequence first other).read text := by
  rw [read_sequence, read_sequence, funext alike]

/-- An expression that takes something leaves less text than there was. -/
theorem length_lt_of_read
    {expression : Expression}
    (positive : 0 < expression.least)
    {text rest : Text}
    {nodes : List Node}
    (found : expression.read text = some (nodes, rest)) :
    rest.length < text.length := by
  obtain ⟨word, rfl, most⟩ := exists_word_of_read found
  rw [List.length_append]
  omega

theorem read_repetition_of_none
    {body : Expression}
    {text : Text}
    (failed : body.read text = none) :
    (repetition body).read text = some ([], text) := by
  rw [read]
  exact readAll_of_none failed

/-- A repetition begins with one reading of its body and goes on from there. -/
theorem read_repetition_of_some
    {body : Expression}
    (positive : 0 < body.least)
    {text rest : Text}
    {nodes : List Node}
    (found : body.read text = some (nodes, rest)) :
    (repetition body).read text =
      Reading.andThen (some (nodes, rest)) (repetition body).read := by
  rw [read, readAll_of_some found (length_lt_of_read positive found), Reading.andThen_some, read]

/-- What follows a repetition follows the rest of it as well. -/
theorem read_repetition_sequence
    {body : Expression}
    (positive : 0 < body.least)
    {text rest : Text}
    {nodes : List Node}
    (found : body.read text = some (nodes, rest))
    (later : Expression) :
    (sequence (repetition body) later).read text =
      Reading.andThen (some (nodes, rest)) (sequence (repetition body) later).read := by
  rw [read_sequence, read_repetition_of_some positive found, Reading.andThen_andThen]
  exact congrArg _ (funext fun rest => (read_sequence (repetition body) later rest).symm)

/-- A repetition fits wherever it is tried. -/
theorem exists_read_repetition
    (body : Expression)
    (text : Text) :
    ∃ nodes rest, (repetition body).read text = some (nodes, rest) := by
  obtain ⟨next, furthest, ran⟩ := exists_run_repetition body ⟨0, text⟩
  obtain ⟨nodes, found⟩ := exists_read_of_run (congrArg Attempt.next? ran)
  exact ⟨nodes, next.rest, found⟩

/--
Where something without nodes is skipped before and after an expression that is repeated,
it is the same to skip before each time.
-/
theorem read_spaced
    {skip body : Expression}
    (skips :
      ∀ text, ∃ rest, skip.read text = some ([], rest) ∧ skip.read rest = some ([], rest))
    (positive : 0 < body.least)
    (later : Expression)
    (text : Text) :
    (sequence skip (sequence (spaced skip body) (sequence skip later))).read text =
      (sequence (repetition (sequence skip body)) (sequence skip later)).read text := by
  obtain ⟨settled, skipped, skippedAgain⟩ := skips text
  have onward : (sequence skip body).read text = body.read settled := by
    rw [read_sequence, skipped, Reading.andThen_silent]
  have same : (sequence skip later).read settled = (sequence skip later).read text := by
    rw [read_sequence, read_sequence, skipped, skippedAgain]
  rw [read_sequence, skipped, Reading.andThen_silent, read_sequence, read_sequence, spaced,
    read_optional, read_sequence]
  cases bodyRead : body.read settled with
  | none =>
      rw [read_repetition_of_none (onward.trans bodyRead)]
      simpa [Reading.orElse, Reading.andThen_none] using same
  | some found =>
      obtain ⟨nodes, rest⟩ := found
      have goesOn :=
        read_repetition_of_some (Nat.lt_of_lt_of_le positive (Nat.le_add_left _ _))
          (onward.trans bodyRead)
      obtain ⟨more, last, again⟩ := exists_read_repetition (sequence skip body) rest
      rw [goesOn, Reading.andThen_some, again]
      rfl

end Expression

end TinyMips.Peg
