import Mathlib.Data.List.Forall2

namespace TinyMips

/-!
# Sequences

What the success of a sequence of steps says about the single steps, what the
results of whole lists say about single elements, and what changes in turn leave of
a state.
-/

variable {ε ε' α β γ : Type}

@[simp]
theorem ok_bind
    (first : α)
    (next : α → Except ε β) :
    (Except.ok first >>= next) = next first :=
  rfl

/-- Two steps in a row succeed exactly if the first does, and the second with its value. -/
theorem bind_eq_ok_iff
    {result : Except ε α}
    {next : α → Except ε β}
    {value : β} :
    (result >>= next) = .ok value ↔
      ∃ first, result = .ok first ∧ next first = .ok value := by
  cases result <;> simp [bind, Except.bind]

/-- Two steps in a row fail where the first fails, or the second with its value. -/
theorem bind_eq_error_iff
    {result : Except ε α}
    {next : α → Except ε β}
    {error : ε} :
    (result >>= next) = .error error ↔
      result = .error error ∨ ∃ first, result = .ok first ∧ next first = .error error := by
  cases result <;> simp [bind, Except.bind]

/-- What succeeds has a value. -/
theorem exists_eq_ok_of_isOk
    {result : Except ε α}
    (succeeds : result.isOk = true) :
    ∃ value, result = .ok value := by
  cases result with
  | error error => simp [Except.isOk, Except.toBool] at succeeds
  | ok value => exact ⟨value, rfl⟩

theorem map_eq_ok_iff
    {result : Except ε α}
    {change : α → β}
    {value : β} :
    result.map change = .ok value ↔ ∃ first, result = .ok first ∧ change first = value := by
  cases result <;> simp [Except.map]

/-- Changing the errors does not touch the values. -/
theorem mapError_eq_ok_iff
    {result : Except ε α}
    {change : ε → ε'}
    {value : α} :
    result.mapError change = .ok value ↔ result = .ok value := by
  cases result <;> simp [Except.mapError]

theorem mapError_eq_error_iff
    {result : Except ε α}
    {change : ε → ε'}
    {changed : ε'} :
    result.mapError change = .error changed ↔
      ∃ error, result = .error error ∧ change error = changed := by
  cases result <;> simp [Except.mapError]

/-! ## Changes to a state -/

/-- Changes to a state in turn; what was changed before a failure stays changed. -/
abbrev Changes (ε σ : Type) := ExceptT ε (StateM σ)

namespace Changes

variable {σ : Type}

/-- To look at the state changes nothing. -/
@[simp]
theorem run_get (state : σ) :
    (get : Changes ε σ σ).run.run state = (.ok state, state) :=
  rfl

/-- What is left after a change and the ones that follow it, if there are any. -/
theorem run_bind
    (first : Changes ε σ α)
    (next : α → Changes ε σ β)
    (state : σ) :
    (first >>= next).run.run state =
      match first.run.run state with
      | (.ok value, between) => (next value).run.run between
      | (.error error, between) => (.error error, between) := by
  rw [ExceptT.run_bind, StateT.run_bind]
  cases first.run.run state with
  | mk result between =>
      cases result with
      | ok value => rfl
      | error error => rfl

end Changes

/-! ## Traversals of lists -/

/-- A traversal succeeds exactly if it does at every element, and collects the results in order. -/
theorem mapM_eq_ok_iff
    {visit : α → Except ε β}
    {items : List α}
    {results : List β} :
    items.mapM visit = .ok results ↔
      List.Forall₂ (fun item result => visit item = .ok result) items results := by
  induction items generalizing results with
  | nil =>
      simp [pure, Except.pure, eq_comm]
  | cons item items inductionHypothesis =>
      rw [List.mapM_cons, bind_eq_ok_iff, List.forall₂_cons_left_iff]
      constructor
      · rintro ⟨result, visited, rest⟩
        obtain ⟨later, traversed, collected⟩ := bind_eq_ok_iff.mp rest
        exact ⟨result, later, visited, inductionHypothesis.mp traversed,
          (Except.ok.inj collected).symm⟩
      · rintro ⟨result, later, visited, related, rfl⟩
        exact ⟨result, visited,
          bind_eq_ok_iff.mpr ⟨later, inductionHypothesis.mpr related, rfl⟩⟩

/-- A traversal fails exactly if it does at some element, and with the error of the first one. -/
theorem mapM_eq_error_iff
    {visit : α → Except ε β}
    {items : List α}
    {error : ε} :
    items.mapM visit = .error error ↔
      ∃ before item after,
        items = before ++ item :: after ∧
          (∃ results, before.mapM visit = .ok results) ∧ visit item = .error error := by
  induction items with
  | nil =>
      simp [pure, Except.pure]
  | cons item items inductionHypothesis =>
      rw [List.mapM_cons, bind_eq_error_iff]
      constructor
      · rintro (failed | ⟨result, visited, rest⟩)
        · exact ⟨[], item, items, rfl, ⟨[], rfl⟩, failed⟩
        · rcases bind_eq_error_iff.mp rest with failed | ⟨later, _, impossible⟩
          · obtain ⟨before, faulty, after, rfl, ⟨results, traversed⟩, failed⟩ :=
              inductionHypothesis.mp failed
            refine ⟨item :: before, faulty, after, rfl, ⟨result :: results, ?_⟩, failed⟩
            rw [List.mapM_cons, visited, ok_bind, traversed]
            rfl
          · simp [pure, Except.pure] at impossible
      · rintro ⟨before, faulty, after, shape, ⟨results, traversed⟩, failed⟩
        cases before with
        | nil =>
            obtain ⟨rfl, rfl⟩ := List.cons.inj shape
            exact .inl failed
        | cons first before =>
            obtain ⟨rfl, rfl⟩ := List.cons.inj shape
            rw [List.mapM_cons] at traversed
            obtain ⟨result, visited, rest⟩ := bind_eq_ok_iff.mp traversed
            obtain ⟨later, traversedLater, _⟩ := bind_eq_ok_iff.mp rest
            have failedLater :=
              inductionHypothesis.mpr ⟨before, faulty, after, rfl, ⟨later, traversedLater⟩, failed⟩
            exact .inr ⟨result, visited, bind_eq_error_iff.mpr (.inl failedLater)⟩

/--
A traversal of the numbered elements that are kept fails at the first of them that fails
under its number, which counts those that are not kept as well.
-/
theorem mapM_filter_zipIdx_eq_error_iff
    {visit : α × Nat → Except ε β}
    {keeps : α → Bool}
    {items : List α}
    {start : Nat}
    {error : ε} :
    ((items.zipIdx start).filter fun numbered => keeps numbered.1).mapM visit = .error error ↔
      ∃ before item after,
        items = before ++ item :: after ∧
          (∃ results,
            ((before.zipIdx start).filter fun numbered => keeps numbered.1).mapM visit =
              .ok results) ∧
            keeps item = true ∧ visit (item, start + before.length) = .error error := by
  rw [mapM_eq_error_iff]
  constructor
  · rintro ⟨_, numbered, _, shape, traversed, failed⟩
    obtain ⟨earlier, rest, split, rfl, shapeRest⟩ := List.filter_eq_append_iff.mp shape
    obtain ⟨skipped, later, rfl, noneKept, kept, rfl⟩ := List.filter_eq_cons_iff.mp shapeRest
    rw [← List.append_assoc] at split
    obtain ⟨before, others, rfl, numberedBefore, rest⟩ := List.zipIdx_eq_append_iff.mp split
    obtain ⟨item, after, rfl, rfl, _⟩ := List.zipIdx_eq_cons_iff.mp rest.symm
    refine ⟨before, item, after, rfl, ?_, kept, by simpa using failed⟩
    rw [← numberedBefore, List.filter_append, List.filter_eq_nil_iff.mpr noneKept,
      List.append_nil]
    exact traversed
  · rintro ⟨before, item, after, rfl, traversed, kept, failed⟩
    rw [List.zipIdx_append, List.zipIdx_cons, List.filter_append, List.filter_cons, if_pos kept]
    exact ⟨_, _, _, rfl, traversed, failed⟩

/-- A traversal of numbered elements fails at the first element that fails under its number. -/
theorem mapM_zipIdx_eq_error_iff
    {visit : α × Nat → Except ε β}
    {items : List α}
    {error : ε} :
    items.zipIdx.mapM visit = .error error ↔
      ∃ before item after,
        items = before ++ item :: after ∧
          (∃ results, before.zipIdx.mapM visit = .ok results) ∧
            visit (item, before.length) = .error error := by
  have keepAll := @mapM_filter_zipIdx_eq_error_iff _ _ _ visit (fun _ => true) items 0 error
  simpa using keepAll

/-- Numbered elements that are each written and read back give their values, in order. -/
theorem mapM_numbered_of_reads
    {write : α → β}
    {value : α → γ}
    {read : β × Nat → Except ε γ}
    (reads : ∀ item number, read (write item, number) = .ok (value item))
    (items : List α)
    (start : Nat) :
    ((items.map write).zipIdx start).mapM read = .ok (items.map value) := by
  induction items generalizing start with
  | nil =>
      rfl
  | cons item items inductionHypothesis =>
      rw [List.map_cons, List.zipIdx_cons, List.mapM_cons, reads,
        inductionHypothesis (start + 1)]
      rfl

/-- A list is related to another one exactly if each of its elements is related to something. -/
theorem exists_forall₂_iff
    {related : α → β → Prop}
    {items : List α} :
    (∃ others, List.Forall₂ related items others) ↔
      ∀ item ∈ items, ∃ other, related item other := by
  induction items with
  | nil =>
      simp
  | cons item items inductionHypothesis =>
      rw [List.forall_mem_cons, ← inductionHypothesis]
      constructor
      · rintro ⟨_, pairwise⟩
        cases pairwise with
        | cons first later => exact ⟨⟨_, first⟩, ⟨_, later⟩⟩
      · rintro ⟨⟨other, first⟩, ⟨others, later⟩⟩
        exact ⟨other :: others, .cons first later⟩

/-- Related lists have related elements at equal places. -/
theorem exists_getElem?_of_forall₂
    {related : α → β → Prop}
    {first : List α}
    {second : List β}
    (pairwise : List.Forall₂ related first second)
    {index : Nat}
    {item : α}
    (found : first[index]? = some item) :
    ∃ other, second[index]? = some other ∧ related item other := by
  induction pairwise generalizing index with
  | nil =>
      simp at found
  | cons head _ inductionHypothesis =>
      cases index with
      | zero =>
          obtain rfl : _ = item := by simpa using found
          exact ⟨_, rfl, head⟩
      | succ index =>
          exact inductionHypothesis (by simpa using found)

/-- Numbered elements come in the order of their numbers. -/
theorem pairwise_zipIdx
    (items : List α)
    (start : Nat) :
    (items.zipIdx start).Pairwise fun first second => first.2 < second.2 := by
  rw [← @List.pairwise_map _ _ Prod.snd, List.zipIdx_map_snd]
  exact List.pairwise_lt_range' 1

/-- Where each item contributes no more, all of them together contribute no more. -/
theorem length_flatMap_le
    {items : List α}
    {first second : α → List β}
    (shorter : ∀ item ∈ items, (first item).length ≤ (second item).length) :
    (items.flatMap first).length ≤ (items.flatMap second).length := by
  induction items with
  | nil =>
      exact Nat.le_refl _
  | cons item items inductionHypothesis =>
      obtain ⟨head, later⟩ := List.forall_mem_cons.mp shorter
      simpa only [List.flatMap_cons, List.length_append] using
        Nat.add_le_add head (inductionHypothesis later)

/--
Lists that one function makes no longer than another are alike when put together only if
each of them is.
-/
theorem flatMap_eq_iff_of_length_le
    {items : List α}
    {first second : α → List β}
    (shorter : ∀ item ∈ items, (first item).length ≤ (second item).length) :
    items.flatMap first = items.flatMap second ↔ ∀ item ∈ items, first item = second item := by
  induction items with
  | nil =>
      simp
  | cons item items inductionHypothesis =>
      obtain ⟨head, later⟩ := List.forall_mem_cons.mp shorter
      rw [List.forall_mem_cons, ← inductionHypothesis later, List.flatMap_cons,
        List.flatMap_cons]
      constructor
      · intro same
        have lengths := congrArg List.length same
        have rest := length_flatMap_le later
        rw [List.length_append, List.length_append] at lengths
        exact List.append_inj same (by omega)
      · rintro ⟨sameHead, sameRest⟩
        rw [sameHead, sameRest]

end TinyMips
