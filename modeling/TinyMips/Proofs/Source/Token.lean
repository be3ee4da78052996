import TinyMips.Source.Token

namespace TinyMips.Token

/-!
# Tokens that are found again

A token is read back from the text it stands at the front of if the text after it
cannot be part of it.
-/

/-- A text does not begin with a character of a class. -/
def Stops (inClass : Char → Bool) (rest : Text) : Prop :=
  ∀ c ∈ rest.head?, inClass c = false

theorem stops_nil
    (inClass : Char → Bool) :
    Stops inClass [] := by
  simp [Stops]

theorem stops_cons_iff
    {inClass : Char → Bool}
    {c : Char}
    {rest : Text} :
    Stops inClass (c :: rest) ↔ inClass c = false := by
  simp [Stops]

/-- A text that begins with no character of a class begins with none of a smaller class. -/
theorem Stops.mono
    {inClass inLarger : Char → Bool}
    {rest : Text}
    (stops : Stops inLarger rest)
    (larger : ∀ c, inClass c = true → inLarger c = true) :
    Stops inClass rest := by
  intro c first
  rw [Bool.eq_false_iff]
  intro inside
  simpa [stops c first] using larger c inside

/-- What follows a run does not begin with the class. -/
theorem stops_run
    (inClass : Char → Bool)
    (text : Text) :
    Stops inClass (run inClass text).rest := by
  intro c first
  have outside := List.head?_dropWhile_not inClass text
  rwa [show (text.dropWhile inClass).head? = some c from first] at outside

/-- A word of one class is taken whole where its run stops. -/
theorem run_append
    {inClass : Char → Bool}
    {word rest : Text}
    (inside : ∀ c ∈ word, inClass c = true)
    (stops : Stops inClass rest) :
    run inClass (word ++ rest) = ⟨word, rest⟩ := by
  rw [run, List.takeWhile_append_of_pos inside, List.dropWhile_append_of_pos inside]
  cases rest with
  | nil => simp
  | cons c rest => simp [stops_cons_iff.mp stops]

theorem run_of_stops
    {inClass : Char → Bool}
    {rest : Text}
    (stops : Stops inClass rest) :
    run inClass rest = ⟨[], rest⟩ := by
  have inside : ∀ c ∈ ([] : Text), inClass c = true := by simp
  exact run_append inside stops

theorem someRun?_append
    {inClass : Char → Bool}
    {word rest : Text}
    (nonempty : word ≠ [])
    (inside : ∀ c ∈ word, inClass c = true)
    (stops : Stops inClass rest) :
    someRun? inClass (word ++ rest) = some ⟨word, rest⟩ := by
  simp [someRun?, run_append inside stops, nonempty]

/-- A name is taken whole where its characters stop. -/
theorem identifier?_append
    {c : Char}
    {name rest : Text}
    (start : Text.isNameStart c = true)
    (inside : ∀ c ∈ name, Text.isNameRest c = true)
    (stops : Stops Text.isNameRest rest) :
    identifier? (c :: name ++ rest) = some ⟨c :: name, rest⟩ := by
  simp [identifier?, start, run_append inside stops]

theorem register?_append
    {name rest : Text}
    (nonempty : name ≠ [])
    (inside : ∀ c ∈ name, c.isAlphanum = true)
    (stops : Stops Char.isAlphanum rest) :
    register? ('$' :: name ++ rest) = some ⟨'$' :: name, rest⟩ := by
  simp [register?, someRun?_append nonempty inside stops]

/-- There is nothing to skip before a visible character that begins no comment. -/
theorem skip_of_stops
    {c : Char}
    {text : Text}
    (notBlank : Text.isBlank c = false)
    (notComment : c ≠ '#') :
    skip (c :: text) = c :: text := by
  rw [skip, List.dropWhile_cons_of_neg (by simp [notBlank])]
  split
  · rename_i shape
    exact absurd (List.cons.inj shape).1 notComment
  · rfl

end TinyMips.Token
