import TinyMips.Assertion.Verdict
import TinyMips.Proofs.Assertion.Reading
import TinyMips.Proofs.Traversal

namespace TinyMips

/-!
# Checks are comparisons of words

What an assertion expects is taken together in 64 bits, and what is compared is a word.
No operation moves a bit, so taking the integers as words first leads to the same word, and
integers that differ by a multiple of 2^32 cannot be told apart by a check.
-/

namespace Combinator

/-- An operation acts on the lower half of wide words as on words. -/
theorem onWords_setWidth
    (combinator : Combinator)
    (first second : BitVec 64) :
    (combinator.onWords first second).setWidth 32 =
      combinator.onWords (first.setWidth 32) (second.setWidth 32) := by
  cases combinator with
  | and => exact BitVec.setWidth_and
  | or => exact BitVec.setWidth_or
  | xor => exact BitVec.setWidth_xor

end Combinator

/-- Two integers make the same word exactly if they are congruent. -/
theorem Word.ofInt_eq_ofInt_iff
    {first second : Int} :
    BitVec.ofInt 32 first = BitVec.ofInt 32 second ↔
      first % 0x100000000 = second % 0x100000000 := by
  rw [← BitVec.toNat_inj, BitVec.toNat_ofInt, BitVec.toNat_ofInt]
  omega

/-- The word of a wide word is its lower half. -/
theorem Word.ofInt_toInt
    (wide : BitVec 64) :
    BitVec.ofInt 32 wide.toInt = wide.setWidth 32 := by
  apply BitVec.eq_of_toNat_eq
  rw [BitVec.toNat_ofInt, BitVec.toNat_setWidth, BitVec.toInt_eq_toNat_cond]
  split <;> omega

theorem Word.setWidth_ofInt
    (value : Int) :
    (BitVec.ofInt 64 value).setWidth 32 = BitVec.ofInt 32 value := by
  apply BitVec.eq_of_toNat_eq
  rw [BitVec.toNat_ofInt, BitVec.toNat_setWidth, BitVec.toNat_ofInt]
  omega

namespace Expected

/-- The expected word: the integers as words, under the operation if there is one. -/
def word : Expected → Word
  | one value => BitVec.ofInt 32 value
  | two combinator first second =>
      combinator.onWords (BitVec.ofInt 32 first) (BitVec.ofInt 32 second)

/-- It makes no difference whether integers are taken as words before an operation or after it. -/
theorem ofInt_folded (expected : Expected) :
    BitVec.ofInt 32 expected.folded = expected.word := by
  cases expected with
  | one value =>
      rfl
  | two combinator first second =>
      calc BitVec.ofInt 32 (combinator.apply first second)
          = (combinator.onWords (BitVec.ofInt 64 first) (BitVec.ofInt 64 second)).setWidth 32 :=
            Word.ofInt_toInt _
        _ = combinator.onWords ((BitVec.ofInt 64 first).setWidth 32)
              ((BitVec.ofInt 64 second).setWidth 32) := combinator.onWords_setWidth _ _
        _ = combinator.onWords (BitVec.ofInt 32 first) (BitVec.ofInt 32 second) := by
            rw [Word.setWidth_ofInt, Word.setWidth_ofInt]

end Expected

/-! ## The word that is read -/

namespace Snapshot

/-- The words of a block: 32 registers, or the memory. -/
def words (snapshot : Snapshot) : Block → Array Word
  | .registers => snapshot.registers.toArray
  | .memory => snapshot.memory

/-- The word that is read at an index of a block: zero where the block has none. -/
inductive Reads (snapshot : Snapshot) (block : Block) : Int → Word → Prop where
  | inside
      {index : Nat}
      (inside : index < (snapshot.words block).size) :
      Reads snapshot block index (snapshot.words block)[index]
  | outside
      {index : Int}
      (outside : index < 0 ∨ (snapshot.words block).size ≤ index) :
      Reads snapshot block index 0

/-- A word is read from a block exactly if it is the element there, or zero beyond the end. -/
theorem reads_iff
    {snapshot : Snapshot}
    {block : Block}
    {index : Int}
    {word : Word} :
    snapshot.Reads block index word ↔ elementAt (snapshot.words block) index = word := by
  constructor
  · intro reads
    cases reads with
    | inside inside =>
        simp [elementAt, inside]
    | outside outside =>
        cases index with
        | ofNat index =>
            have beyond : (snapshot.words block).size ≤ index := by
              rw [Int.ofNat_eq_natCast] at outside
              omega
            simp [elementAt, beyond]
        | negSucc index =>
            rfl
  · rintro rfl
    cases index with
    | ofNat index =>
        by_cases inside : index < (snapshot.words block).size
        · simpa [elementAt, inside] using Reads.inside inside
        · have beyond : (snapshot.words block).size ≤ index := by
            omega
          simpa [elementAt, beyond] using
            Reads.outside (.inr (Int.ofNat_le.mpr beyond))
    | negSucc index =>
        exact .outside (.inl (Int.negSucc_lt_zero index))

end Snapshot

namespace Assertion

/-- What an assertion compares is the word that is read at its index. -/
theorem actual_eq_iff
    {assertion : Assertion}
    {snapshot : Snapshot}
    {word : Word} :
    assertion.actual snapshot = word ↔
      snapshot.Reads assertion.block assertion.index word := by
  have sameBlock :
      assertion.actual snapshot =
        Snapshot.elementAt (snapshot.words assertion.block) assertion.index := by
    rw [actual]
    cases assertion.block <;> rfl
  rw [Snapshot.reads_iff, sameBlock]

/-- An assertion holds exactly if the word at its index is the expected one. -/
theorem holds_iff
    {assertion : Assertion}
    {snapshot : Snapshot} :
    assertion.holds snapshot = true ↔
      snapshot.Reads assertion.block assertion.index (BitVec.ofInt 32 assertion.expected) :=
  decide_eq_true_iff.trans actual_eq_iff

/-- Assertions on one word that expect the same word hold in the same snapshots. -/
theorem outcome_eq_of_congruent
    {first second : Assertion}
    (sameBlock : first.block = second.block)
    (sameIndex : first.index = second.index)
    (congruent : first.expected % 0x100000000 = second.expected % 0x100000000)
    (snapshot : Snapshot) :
    first.actual snapshot = second.actual snapshot ∧
      first.holds snapshot = second.holds snapshot := by
  have sameActual : first.actual snapshot = second.actual snapshot := by
    rw [actual, actual, sameBlock, sameIndex]
  refine ⟨sameActual, ?_⟩
  rw [holds, holds, sameActual, Word.ofInt_eq_ofInt_iff.mpr congruent]

end Assertion

/-! ## Verdicts and their tally -/

/-- The verdict on an entry: on an assertion by the word that it reads, else that it is invalid. -/
inductive Judges (snapshot : Snapshot) : Except MalformedAssertion Assertion → Verdict → Prop where
  | pass
      {assertion : Assertion}
      {word : Word}
      (reads : snapshot.Reads assertion.block assertion.index word)
      (same : word = BitVec.ofInt 32 assertion.expected) :
      Judges snapshot (.ok assertion) ⟨.pass, some word, assertion.text⟩
  | fail
      {assertion : Assertion}
      {word : Word}
      (reads : snapshot.Reads assertion.block assertion.index word)
      (differs : word ≠ BitVec.ofInt 32 assertion.expected) :
      Judges snapshot (.ok assertion) ⟨.fail, some word, assertion.text⟩
  | invalid
      {error : MalformedAssertion} :
      Judges snapshot (.error error) ⟨.invalid, none, error.text⟩

/-- Every entry has one verdict. -/
theorem judges_iff
    {snapshot : Snapshot}
    {entry : Except MalformedAssertion Assertion}
    {verdict : Verdict} :
    Judges snapshot entry verdict ↔ Verdict.of snapshot entry = verdict := by
  constructor
  · intro judges
    cases judges with
    | pass reads same =>
        obtain rfl := Assertion.actual_eq_iff.mpr reads
        simp [Verdict.of, Assertion.holds, same]
    | fail reads differs =>
        obtain rfl := Assertion.actual_eq_iff.mpr reads
        simp [Verdict.of, Assertion.holds, differs]
    | invalid => rfl
  · rintro rfl
    cases entry with
    | error error =>
        exact .invalid
    | ok assertion =>
        have reads := Assertion.actual_eq_iff.mp (rfl : assertion.actual snapshot = _)
        by_cases same : assertion.actual snapshot = BitVec.ofInt 32 assertion.expected
        · simpa [Verdict.of, Assertion.holds, same] using Judges.pass reads same
        · simpa [Verdict.of, Assertion.holds, same] using Judges.fail reads same

/-- Entries are judged one by one, in order. -/
theorem Assertion.forall₂_judges_iff
    {snapshot : Snapshot}
    {entries : List (Except MalformedAssertion Assertion)}
    {verdicts : List Verdict} :
    List.Forall₂ (Judges snapshot) entries verdicts ↔ verdicts = evaluate entries snapshot := by
  have judged : Judges snapshot = fun entry verdict => Verdict.of snapshot entry = verdict := by
    funext entry verdict
    exact propext judges_iff
  rw [judged, evaluate, eq_comm, ← List.forall₂_eq_eq_eq, List.forall₂_map_left_iff]

namespace Tally

/-- The tally after one more entry has been checked. -/
def count
    (snapshot : Snapshot)
    (tally : Tally) :
    Except MalformedAssertion Assertion → Tally
  | .ok assertion =>
      { tally with
        valid := tally.valid + 1
        passed := tally.passed + if assertion.holds snapshot then 1 else 0 }
  | .error _ => tally

/-- Checking one entry counts its verdict. -/
theorem count_eq
    (snapshot : Snapshot)
    (tally : Tally)
    (entry : Except MalformedAssertion Assertion) :
    count snapshot tally entry =
      { tally with
        passed := tally.passed + if (Verdict.of snapshot entry).status = .pass then 1 else 0
        valid :=
          tally.valid + if (Verdict.of snapshot entry).status ≠ .invalid then 1 else 0 } := by
  cases entry with
  | error error =>
      simp [count, Verdict.of]
  | ok assertion =>
      cases holds : assertion.holds snapshot <;> simp [count, Verdict.of, holds]

/-- Entries that are checked one after the other add the numbers of their verdicts. -/
theorem foldl_count
    (snapshot : Snapshot)
    (entries : List (Except MalformedAssertion Assertion))
    (tally : Tally) :
    entries.foldl (count snapshot) tally =
      { tally with
        passed := tally.passed + (ofVerdicts (Assertion.evaluate entries snapshot)).passed
        valid := tally.valid + (ofVerdicts (Assertion.evaluate entries snapshot)).valid } := by
  -- The tally so far is arbitrary, since every entry leaves another one to the entries after it.
  induction entries generalizing tally with
  | nil =>
      rfl
  | cons entry entries inductionHypothesis =>
      rw [List.foldl_cons, inductionHypothesis, count_eq]
      simp [ofVerdicts, Assertion.evaluate, List.countP_cons, Nat.add_assoc, Nat.add_comm]

/-- Checking all entries, from nothing counted, leads to the tally of their verdicts. -/
theorem foldl_count_eq
    (snapshot : Snapshot)
    (entries : List (Except MalformedAssertion Assertion)) :
    entries.foldl (count snapshot) ⟨0, 0, entries.length⟩ =
      ofVerdicts (Assertion.evaluate entries snapshot) := by
  rw [foldl_count]
  simp [ofVerdicts, Assertion.evaluate]

/-- A tally has the numbers of verdicts of each status, and none of them is out of order. -/
structure Counts (tally : Tally) (verdicts : List Verdict) : Prop where
  passed : tally.passed = verdicts.countP fun verdict => verdict.status = .pass
  valid : tally.valid = verdicts.countP fun verdict => verdict.status ≠ .invalid
  total : tally.total = verdicts.length
  passed_le_valid : tally.passed ≤ tally.valid
  valid_le_total : tally.valid ≤ tally.total
  invalid :
    tally.total < 0x10000000000000000 →
      tally.invalid = tally.total - tally.valid ∧
        tally.invalid = verdicts.countP fun verdict => verdict.status = .invalid

/-- What is not valid is the rest, since there are not too many entries to count. -/
theorem invalid_eq_sub
    {tally : Tally}
    (ordered : tally.valid ≤ tally.total)
    (bounded : tally.total < 0x10000000000000000) :
    tally.invalid = tally.total - tally.valid := by
  rw [invalid, BitVec.toNat_sub, BitVec.toNat_ofNat, BitVec.toNat_ofNat]
  omega

/-- A tally counts the verdicts that it was made from. -/
theorem counts_ofVerdicts (verdicts : List Verdict) :
    (ofVerdicts verdicts).Counts verdicts := by
  have ordered : (ofVerdicts verdicts).valid ≤ (ofVerdicts verdicts).total :=
    List.countP_le_length
  have complement :
      verdicts.length =
        (verdicts.countP fun verdict => verdict.status ≠ .invalid) +
          verdicts.countP fun verdict => verdict.status = .invalid := by
    have split :=
      List.length_eq_countP_add_countP (l := verdicts) fun verdict => verdict.status ≠ .invalid
    simpa using split
  refine ⟨rfl, rfl, rfl, ?_, ordered, fun bounded => ?_⟩
  · apply List.countP_mono_left
    intro verdict _ passed
    have isPass : verdict.status = .pass := of_decide_eq_true passed
    simp [isPass]
  · have remaining := invalid_eq_sub ordered bounded
    refine ⟨remaining, remaining.trans ?_⟩
    simp only [ofVerdicts]
    omega

end Tally

/--
A check compares words. An assertion that was read holds in a snapshot exactly if the word it
reads there is the expected word, in which each integer is taken as a word before the operation;
exactly one word is read at any index, and assertions that read the same word and expect
integers that are congruent have the same outcome. Entries get one verdict each, in order, and
their tally, counted entry by entry, has the numbers of verdicts of each status.
-/
theorem Assertion.checks_compare_words
    (snapshot : Snapshot) :
    (∀ line assertion,
      read line = .ok assertion →
        (∃ expected, States assertion.text assertion.block assertion.index expected) ∧
          ∀ expected,
            States assertion.text assertion.block assertion.index expected →
              (assertion.holds snapshot = true ↔
                snapshot.Reads assertion.block assertion.index expected.word)) ∧
      (∀ (assertion : Assertion) word,
        snapshot.Reads assertion.block assertion.index word ↔
          assertion.actual snapshot = word) ∧
      (∀ first second : Assertion,
        first.block = second.block →
        first.index = second.index →
        first.expected % 0x100000000 = second.expected % 0x100000000 →
          first.actual snapshot = second.actual snapshot ∧
            first.holds snapshot = second.holds snapshot) ∧
      ∀ entries,
        (∀ verdicts,
          List.Forall₂ (Judges snapshot) entries verdicts ↔
            verdicts = evaluate entries snapshot) ∧
          entries.foldl (Tally.count snapshot) ⟨0, 0, entries.length⟩ =
            Tally.ofVerdicts (evaluate entries snapshot) ∧
          (Tally.ofVerdicts (evaluate entries snapshot)).Counts (evaluate entries snapshot) := by
  refine ⟨fun line assertion found => ⟨?_, fun expected states => ?_⟩,
    fun assertion word => actual_eq_iff.symm, ?_, fun entries => ?_⟩
  · obtain ⟨expected, states, _⟩ := states_of_read found
    exact ⟨expected, states⟩
  · obtain ⟨stated, statesText, _, folded⟩ := states_of_read found
    obtain ⟨_, _, rfl⟩ := statesText.unique states
    rw [holds_iff, folded, stated.ofInt_folded]
  · intro first second sameBlock sameIndex congruent
    exact outcome_eq_of_congruent sameBlock sameIndex congruent snapshot
  · exact ⟨fun verdicts => forall₂_judges_iff, Tally.foldl_count_eq snapshot entries,
      Tally.counts_ofVerdicts _⟩

/-- The same word is expected of a register as a signed, an unsigned and a wide integer. -/
example :
    (["-2", "4294967294", "-1 ^ 1", "0x1FFFFFFFE & 4294967295"].map fun value =>
      (Assertion.read (Text.ofString s!"assert(sim.inspect_mem(rf)[8] == {value})")).toOption.map
        (Assertion.holds · ⟨0, Vector.replicate 32 0xFFFFFFFE, #[]⟩)) =
      List.replicate 4 (some true) := by
  decide +kernel

end TinyMips
