import TinyMips.Text.Basic

namespace TinyMips.Text

/-!
# White space around a text

Trimming takes white space from both ends of a text and nothing else: white space that
is added there makes no difference, and all other characters stay.
-/

/-- All characters of a text are white space. -/
def IsWhite (text : Text) : Prop :=
  ∀ c ∈ text, isWhiteSpace c = true

instance (text : Text) : Decidable text.IsWhite :=
  List.decidableBAll (fun c => isWhiteSpace c = true) text

theorem isWhite_append_iff
    {first second : Text} :
    IsWhite (first ++ second) ↔ first.IsWhite ∧ second.IsWhite :=
  List.forall_mem_append

/-- The characters of a text that are not white space. -/
def visible (text : Text) : Text :=
  text.filter fun c => !isWhiteSpace c

theorem visible_append (first second : Text) :
    visible (first ++ second) = visible first ++ visible second :=
  List.filter_append first second

/-- Nothing is visible exactly of white space. -/
theorem visible_eq_nil_iff
    {text : Text} :
    visible text = [] ↔ text.IsWhite := by
  simp [visible, IsWhite]

/-! ## What trimming leaves out -/

theorem dropWhile_of_isWhite
    {text : Text}
    (isWhite : text.IsWhite) :
    text.dropWhile isWhiteSpace = [] := by
  rw [← List.append_nil text, List.dropWhile_append_of_pos isWhite]
  rfl

/-- Only white space is dropped at the front. -/
theorem exists_white_dropWhile (text : Text) :
    ∃ white : Text, white.IsWhite ∧ text = white ++ text.dropWhile isWhiteSpace :=
  ⟨text.takeWhile isWhiteSpace, List.all_eq_true.mp List.all_takeWhile,
    List.takeWhile_append_dropWhile.symm⟩

/-- Only white space is dropped at the end. -/
theorem exists_trimEnd_white (text : Text) :
    ∃ white : Text, white.IsWhite ∧ text = text.trimEnd ++ white := by
  obtain ⟨white, isWhite, shape⟩ := exists_white_dropWhile text.reverse
  refine ⟨white.reverse, by simpa [IsWhite] using isWhite, ?_⟩
  rw [trimEnd, ← List.reverse_append, ← shape, List.reverse_reverse]

/-- Only white space is taken from the ends. -/
theorem exists_white_trim_white (text : Text) :
    ∃ before after : Text,
      before.IsWhite ∧ after.IsWhite ∧ text = before ++ (text.trim ++ after) := by
  obtain ⟨before, beforeWhite, shape⟩ := exists_white_dropWhile text
  obtain ⟨after, afterWhite, rest⟩ := exists_trimEnd_white (text.dropWhile isWhiteSpace)
  refine ⟨before, after, beforeWhite, afterWhite, ?_⟩
  rw [trim, ← rest]
  exact shape

/-- Trimming keeps everything that is visible. -/
theorem visible_trim (text : Text) :
    visible text.trim = visible text := by
  obtain ⟨before, after, beforeWhite, afterWhite, shape⟩ := exists_white_trim_white text
  calc visible text.trim
      = visible (before ++ (text.trim ++ after)) := by
        rw [visible_append, visible_append, visible_eq_nil_iff.mpr beforeWhite,
          visible_eq_nil_iff.mpr afterWhite, List.nil_append, List.append_nil]
    _ = visible text := by rw [← shape]

/-- Trimming leaves nothing exactly of white space. -/
theorem trim_eq_nil_iff
    {text : Text} :
    text.trim = [] ↔ text.IsWhite := by
  constructor
  · intro nothing
    rw [← visible_eq_nil_iff, ← visible_trim, nothing]
    rfl
  · intro isWhite
    rw [trim, dropWhile_of_isWhite isWhite]
    rfl

/-- A text that neither begins nor ends with white space stays. -/
theorem trim_of_ends
    {text : Text}
    (first : ∀ c ∈ text.head?, isWhiteSpace c = false)
    (last : ∀ c ∈ text.getLast?, isWhiteSpace c = false) :
    text.trim = text := by
  have kept
      {part : Text}
      (first : ∀ c ∈ part.head?, isWhiteSpace c = false) :
      part.dropWhile isWhiteSpace = part := by
    cases part with
    | nil => rfl
    | cons c rest => simp [first c rfl]
  have reversed : ∀ c ∈ text.reverse.head?, isWhiteSpace c = false := by
    simpa using last
  rw [trim, trimEnd, kept first, kept reversed, List.reverse_reverse]

/-- A text without white space is left as it is. -/
theorem trim_of_noWhiteSpace
    {text : Text}
    (noWhiteSpace : ∀ c ∈ text, isWhiteSpace c = false) :
    text.trim = text :=
  trim_of_ends (fun c first => noWhiteSpace c (List.mem_of_mem_head? first))
    fun c last => noWhiteSpace c (List.mem_of_mem_getLast? last)

/-! ## White space that is added -/

/-- White space behind a text does not show once its end is trimmed. -/
theorem trimEnd_append_white
    (text : Text)
    {white : Text}
    (isWhite : white.IsWhite) :
    trimEnd (text ++ white) = text.trimEnd := by
  have reversed : IsWhite white.reverse := by
    simpa [IsWhite] using isWhite
  rw [trimEnd, List.reverse_append, List.dropWhile_append_of_pos reversed, trimEnd]

/-- White space before a text does not show once it is trimmed. -/
theorem trim_white_append
    {white : Text}
    (isWhite : white.IsWhite)
    (text : Text) :
    trim (white ++ text) = text.trim := by
  rw [trim, List.dropWhile_append_of_pos isWhite, trim]

theorem trim_append_white
    (text : Text)
    {white : Text}
    (isWhite : white.IsWhite) :
    trim (text ++ white) = text.trim := by
  obtain ⟨before, beforeWhite, shape⟩ := exists_white_dropWhile text
  cases rest : text.dropWhile isWhiteSpace with
  | nil =>
      rw [rest, List.append_nil] at shape
      subst shape
      rw [trim_eq_nil_iff.mpr beforeWhite, trim_eq_nil_iff]
      exact isWhite_append_iff.mpr ⟨beforeWhite, isWhite⟩
  | cons c others =>
      have notWhite : isWhiteSpace c = false := by
        have head := List.head?_dropWhile_not isWhiteSpace text
        rw [rest] at head
        simpa using head
      have kept (later : Text) : trim (c :: later) = trimEnd (c :: later) := by
        rw [trim, List.dropWhile_cons_of_neg (by simp [notWhite])]
      rw [shape, rest, List.append_assoc, trim_white_append beforeWhite,
        trim_white_append beforeWhite, List.cons_append, kept, kept, ← List.cons_append,
        trimEnd_append_white _ isWhite]

/-- Trimming again changes nothing. -/
theorem trim_trim (text : Text) : text.trim.trim = text.trim := by
  obtain ⟨before, after, beforeWhite, afterWhite, shape⟩ := exists_white_trim_white text
  calc text.trim.trim
      = trim (before ++ (text.trim ++ after)) := by
        rw [trim_white_append beforeWhite, trim_append_white _ afterWhite]
    _ = text.trim := by rw [← shape]

/-! ## Beginnings and ends -/

/-- A prefix can be dropped exactly if the text begins with it. -/
theorem dropPrefix?_eq_some_iff
    {start text rest : Text} :
    dropPrefix? start text = some rest ↔ text = start ++ rest := by
  induction start generalizing text with
  | nil =>
      simp [dropPrefix?]
  | cons expected start inductionHypothesis =>
      cases text with
      | nil => simp [dropPrefix?]
      | cons c text =>
          by_cases same : c = expected
          · simp [dropPrefix?, same, inductionHypothesis]
          · simp [dropPrefix?, same]

theorem dropSuffix?_eq_some_iff
    {final text rest : Text} :
    dropSuffix? final text = some rest ↔ text = rest ++ final := by
  rw [dropSuffix?, Option.map_eq_some_iff]
  simp only [dropPrefix?_eq_some_iff]
  constructor
  · rintro ⟨reversed, shape, rfl⟩
    rw [← List.reverse_reverse text, shape, List.reverse_append, List.reverse_reverse]
  · rintro rfl
    exact ⟨rest.reverse, List.reverse_append, List.reverse_reverse rest⟩

/-- A text between two visible characters stays when what follows is trimmed. -/
theorem exists_trim_append
    {first last : Char}
    (firstVisible : isWhiteSpace first = false)
    (lastVisible : isWhiteSpace last = false)
    (middle rest : Text) :
    ∃ others, trim (first :: middle ++ last :: rest) = first :: middle ++ last :: others := by
  have kept :
      trim (first :: middle ++ last :: rest) = trimEnd (first :: middle ++ last :: rest) := by
    rw [trim, List.cons_append, List.dropWhile_cons_of_neg (by simp [firstVisible])]
  obtain ⟨white, isWhite, shape⟩ := exists_trimEnd_white (first :: middle ++ last :: rest)
  rw [← kept] at shape
  generalize trim (first :: middle ++ last :: rest) = trimmed at *
  rw [List.append_cons, List.append_eq_append_iff] at shape
  rcases shape with ⟨others, rfl, _⟩ | ⟨others, start, tail⟩
  · exact ⟨others, by simp⟩
  · rcases List.eq_nil_or_concat others with rfl | ⟨more, final, rfl⟩
    · exact ⟨[], by simpa using start.symm⟩
    · -- The last character would be among those that trimming takes away.
      have finalWhite : isWhiteSpace final = true := isWhite final (by simp [tail])
      rw [List.concat_eq_append, ← List.append_assoc] at start
      obtain ⟨_, sameLast⟩ := List.append_inj' start rfl
      rw [← List.singleton_inj.mp sameLast, lastVisible] at finalWhite
      simp at finalWhite

end TinyMips.Text
