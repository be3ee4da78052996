import Mathlib.Data.List.Induction
import TinyMips.Proofs.Console.Session
import TinyMips.Proofs.Text.Trim
import TinyMips.Proofs.Traversal

namespace TinyMips

/-!
# What a check decides

A check runs each of the tests that its files name once, in the order in which they are
named first, and says yes exactly if every file names a test and every test succeeds. So
only the set of the named tests matters, and not how often, in which order or by which of
its files a test is named.
-/

namespace Tally

/-- A tally has passed exactly if there are verdicts and all of them are passes. -/
theorem allPassed_ofVerdicts_iff
    {verdicts : List Verdict} :
    (ofVerdicts verdicts).allPassed = true ↔
      verdicts ≠ [] ∧ ∀ verdict ∈ verdicts, verdict.status = .pass := by
  simp [allPassed, ofVerdicts, List.countP_eq_length, List.length_pos_iff]

/-- Assertions that all hold were all understood. -/
theorem valid_of_forall_pass
    {verdicts : List Verdict}
    (pass : ∀ verdict ∈ verdicts, verdict.status = .pass) :
    (ofVerdicts verdicts).valid = verdicts.length := by
  apply List.countP_eq_length.mpr
  intro verdict member
  simp [pass verdict member]

end Tally

/-- The verdict on an entry is a pass exactly if the entry was understood and holds. -/
theorem Verdict.status_of_eq_pass_iff
    {snapshot : Snapshot}
    {entry : Except MalformedAssertion Assertion} :
    (Verdict.of snapshot entry).status = .pass ↔
      ∃ assertion, entry = .ok assertion ∧ assertion.holds snapshot = true := by
  cases entry with
  | error error => simp [Verdict.of]
  | ok assertion => simp [Verdict.of]

/-- Naming what failed does not change what succeeds. -/
theorem Loading.orFail_eq_ok_iff
    {doing : String}
    {causes : ε → List String}
    {result : Except ε α}
    {value : α} :
    orFail doing causes result = .ok value ↔ result = .ok value := by
  cases result <;> simp [orFail]

namespace Check

/-! ## The tests that files name -/

/-- A file is the listing or the source of a test. -/
def IsFileOf (base file : String) : Prop :=
  file = base ++ listingSuffix ∨ file = base ++ sourceSuffix

/-- A file has a base name exactly if it carries one of the suffixes of a test behind it. -/
theorem baseName?_eq_some_iff
    {file base : String} :
    baseName? file = some base ↔ IsFileOf base file := by
  have ends (suffix : String) :
      (∃ name,
          Text.dropSuffix? (Text.ofString suffix) (Text.ofString file) = some name ∧
            Text.asString name = base) ↔
        file = base ++ suffix := by
    simp only [Text.dropSuffix?_eq_some_iff, Text.ofString, Text.asString,
      ← String.toList_inj, String.toList_append]
    constructor
    · rintro ⟨name, shape, same⟩
      rw [String.toList_ofList] at same
      rw [← same, shape]
    · intro shape
      exact ⟨base.toList, shape, String.toList_ofList⟩
  rw [baseName?, Option.map_or, Option.or_eq_some_iff, Option.map_eq_some_iff,
    Option.map_eq_some_iff, Option.map_eq_none_iff, ends, ends, IsFileOf]
  apply or_congr_right
  constructor
  · exact And.right
  · rintro rfl
    refine ⟨?_, rfl⟩
    -- The two suffixes end with different characters.
    rw [Option.eq_none_iff_forall_ne_some]
    intro name found
    have shape :
        base.toList ++ ['_', 'i', 'n', 'f', 'o', '.', 's'] = name ++ ['.', 't', 'x', 't'] :=
      String.toList_append.symm.trans (Text.dropSuffix?_eq_some_iff.mp found)
    have last := congrArg List.getLast? shape
    simp at last

/-- One more file adds its base name at the end, unless the name is there already. -/
theorem baseNames_append_singleton
    (files : List String)
    (file : String) :
    baseNames (files ++ [file]) =
      match baseName? file with
      | none => baseNames files
      | some base =>
          if base ∈ baseNames files then baseNames files else baseNames files ++ [base] := by
  cases found : baseName? file <;> simp [baseNames, found]

/-- One more file adds its own base name and no other. -/
theorem mem_baseNames_append_singleton
    {files : List String}
    {file base : String} :
    base ∈ baseNames (files ++ [file]) ↔ base ∈ baseNames files ∨ IsFileOf base file := by
  rw [baseNames_append_singleton, ← baseName?_eq_some_iff]
  cases baseName? file with
  | none => simp
  | some other =>
      by_cases seen : other ∈ baseNames files
      · simp only [seen, if_true, Option.some.injEq]
        constructor
        · exact .inl
        · rintro (earlier | rfl)
          · exact earlier
          · exact seen
      · simp [seen, eq_comm]

/-- The tests that are run are those that some file names. -/
theorem mem_baseNames_iff
    {files : List String}
    {base : String} :
    base ∈ baseNames files ↔ ∃ file ∈ files, IsFileOf base file := by
  induction files using List.reverseRecOn with
  | nil =>
      simp [baseNames]
  | append_singleton files file inductionHypothesis =>
      simp [mem_baseNames_append_singleton, inductionHypothesis, or_and_right, exists_or]

/-- The place of the first file that names a test. -/
def firstPlace (files : List String) (base : String) : Nat :=
  files.findIdx fun file => baseName? file = some base

/-- A base name has a place among the files exactly if one of them bears it. -/
theorem firstPlace_lt_length_iff
    {files : List String}
    {base : String} :
    firstPlace files base < files.length ↔ base ∈ baseNames files := by
  simp [firstPlace, List.findIdx_lt_length, mem_baseNames_iff, baseName?_eq_some_iff]

/-- More files after the ones that name a test leave its place as it is. -/
theorem firstPlace_append_of_mem
    {files : List String}
    {base : String}
    (named : base ∈ baseNames files)
    (more : List String) :
    firstPlace (files ++ more) base = firstPlace files base := by
  have inside := firstPlace_lt_length_iff.mpr named
  rw [firstPlace] at inside
  rw [firstPlace, List.findIdx_append, if_pos inside, firstPlace]

/-- A base name that is new is found behind the earlier files only. -/
theorem length_le_firstPlace_append
    {files : List String}
    {base : String}
    (unnamed : base ∉ baseNames files)
    (more : List String) :
    files.length ≤ firstPlace (files ++ more) base := by
  have outside := mt firstPlace_lt_length_iff.mp unnamed
  rw [firstPlace] at outside
  rw [firstPlace, List.findIdx_append, if_neg outside]
  exact Nat.le_add_left _ _

/-- Tests are run in the order in which they are named first. -/
theorem pairwise_baseNames (files : List String) :
    (baseNames files).Pairwise fun first second =>
      firstPlace files first < firstPlace files second := by
  induction files using List.reverseRecOn with
  | nil =>
      simp [baseNames]
  | append_singleton files file inductionHypothesis =>
      have kept :
          (baseNames files).Pairwise fun first second =>
            firstPlace (files ++ [file]) first < firstPlace (files ++ [file]) second := by
        apply inductionHypothesis.imp_of_mem
        intro first second firstNamed secondNamed before
        rwa [firstPlace_append_of_mem firstNamed, firstPlace_append_of_mem secondNamed]
      rw [baseNames_append_singleton]
      split
      · exact kept
      · split
        · exact kept
        · rename_i unnamed
          refine List.pairwise_append.mpr ⟨kept, List.pairwise_singleton _ _, ?_⟩
          intro first named second isLast
          obtain rfl := List.mem_singleton.mp isLast
          rw [firstPlace_append_of_mem named]
          exact Nat.lt_of_lt_of_le (firstPlace_lt_length_iff.mpr named)
            (length_le_firstPlace_append unnamed [file])

/-- No test is run twice. -/
theorem nodup_baseNames (files : List String) :
    (baseNames files).Nodup := by
  apply (pairwise_baseNames files).imp
  rintro first second before rfl
  exact Nat.lt_irrefl _ before

/-- No file is stray exactly if each belongs to a test. -/
theorem strays_isEmpty_iff
    {files : List String} :
    (strays files).isEmpty = true ↔ ∀ file ∈ files, ∃ base, IsFileOf base file := by
  simp [strays, ← Option.isSome_iff_ne_none, Option.isSome_iff_exists, baseName?_eq_some_iff]

/-! ## One test -/

/--
The program of a test is that of its listing where there is one, whether or not its
source assembles, and is its assembled source where there is none.
-/
def Loads (host : Host) (base : String) (source : Text) (program : Program) : Prop :=
  if host.exists (base ++ listingSuffix) then
    ∃ text,
      host.read (base ++ listingSuffix) = .ok text ∧ Program.ofListing text = .ok program
  else
    assemble source = .ok program

/--
A test succeeds if its source can be read, its program can be loaded, and its source has
assertions, all of which can be read and hold in the state in which its program goes idle,
runs out of cycles or fails.
-/
def Succeeds (host : Host) (config : Config) (cycles : Nat) (base : String) : Prop :=
  ∃ source program,
    host.read (base ++ sourceSuffix) = .ok source ∧
      Loads host base source program ∧
      Assertion.collect source ≠ [] ∧
      ∀ entry ∈ Assertion.collect source,
        ∃ assertion,
          entry = .ok assertion ∧
            assertion.holds ((Simulator.new program config).runUntilIdle cycles).2.snapshot = true

/-- The source of a test is what the file with its suffix holds. -/
theorem source_eq_ok_iff
    {host : Host}
    {base : String}
    {text : Text} :
    source host base = .ok text ↔ host.read (base ++ sourceSuffix) = .ok text :=
  Loading.orFail_eq_ok_iff

/-- A program is loaded exactly as the rules for choosing between its files say. -/
theorem program_eq_ok_iff
    {host : Host}
    {base : String}
    {source : Text}
    {program : Program} :
    Check.program host base source = .ok program ↔ Loads host base source program := by
  simp only [Check.program, Loads]
  split
  · simp [Loading.listing, bind_eq_ok_iff, Loading.orFail_eq_ok_iff]
  · exact Loading.orFail_eq_ok_iff

/-- A test that was run is known by its source, its program and the state it ended in. -/
theorem runTest_eq_ok_iff
    {host : Host}
    {config : Config}
    {cycles : Nat}
    {base : String}
    {test : TestRun} :
    runTest host config cycles base = .ok test ↔
      ∃ source program,
        host.read (base ++ sourceSuffix) = .ok source ∧
          Loads host base source program ∧
          test =
            { base
              start := .new program config
              result := ((Simulator.new program config).runUntilIdle cycles).1
              verdicts :=
                Assertion.evaluate (Assertion.collect source)
                  ((Simulator.new program config).runUntilIdle cycles).2.snapshot } := by
  simp only [runTest, bind_eq_ok_iff, source_eq_ok_iff, program_eq_ok_iff, pure, Except.pure,
    Except.ok.injEq]
  constructor
  · rintro ⟨source, read, program, loads, rfl⟩
    exact ⟨source, program, read, loads, rfl⟩
  · rintro ⟨source, program, read, loads, rfl⟩
    exact ⟨source, read, program, loads, rfl⟩

/-- The two criteria agree: the marks of the verdicts, and the counts of the tally. -/
theorem TestRun.passed_eq_allPassed (test : TestRun) :
    test.passed = (Tally.ofVerdicts test.verdicts).allPassed := by
  rw [Bool.eq_iff_iff, Tally.allPassed_ofVerdicts_iff, TestRun.passed, Bool.and_eq_true,
    List.all_eq_true]
  simp only [decide_eq_true_eq]
  apply and_congr_left
  intro pass
  rw [Tally.percentage?, Tally.valid_of_forall_pass pass, ← List.length_pos_iff]
  split <;> simp [*]

/-- A test has passed exactly if it has assertions, and each was understood and holds. -/
theorem passed_evaluate_iff
    {test : TestRun}
    {assertions : List (Except MalformedAssertion Assertion)}
    {snapshot : Snapshot}
    (evaluated : test.verdicts = Assertion.evaluate assertions snapshot) :
    test.passed = true ↔
      assertions ≠ [] ∧
        ∀ entry ∈ assertions,
          ∃ assertion, entry = .ok assertion ∧ assertion.holds snapshot = true := by
  simp [TestRun.passed_eq_allPassed, Tally.allPassed_ofVerdicts_iff, evaluated,
    Assertion.evaluate, Verdict.status_of_eq_pass_iff]

/-- A test run has passed exactly if the test succeeds. -/
theorem hasPassed_runTest_iff
    {host : Host}
    {config : Config}
    {cycles : Nat}
    {base : String} :
    hasPassed (runTest host config cycles base) = true ↔ Succeeds host config cycles base := by
  constructor
  · intro passed
    cases run : runTest host config cycles base with
    | error failure =>
        simp [run, hasPassed] at passed
    | ok test =>
        obtain ⟨source, program, read, loads, rfl⟩ := runTest_eq_ok_iff.mp run
        rw [run, hasPassed, passed_evaluate_iff rfl] at passed
        exact ⟨source, program, read, loads, passed⟩
  · rintro ⟨source, program, read, loads, hold⟩
    rw [runTest_eq_ok_iff.mpr ⟨source, program, read, loads, rfl⟩, hasPassed]
    exact (passed_evaluate_iff rfl).mpr hold

/-! ## All tests -/

/-- What a check says about files. -/
def decision (host : Host) (config : Config) (cycles : Nat) (files : List String) : Bool :=
  passes files (runTests host config cycles files)

/-- The decision is for success exactly if no file is stray and every test succeeds. -/
theorem decision_eq_true_iff
    {host : Host}
    {config : Config}
    {cycles : Nat}
    {files : List String} :
    decision host config cycles files = true ↔
      (∀ file ∈ files, ∃ base, IsFileOf base file) ∧
        ∀ base, (∃ file ∈ files, IsFileOf base file) → Succeeds host config cycles base := by
  simp only [decision, passes, Bool.and_eq_true, strays_isEmpty_iff, runTests, List.all_eq_true,
    List.forall_mem_map, hasPassed_runTest_iff, mem_baseNames_iff]

/-- A check depends on the names of the tests alone. -/
theorem decision_congr
    {files others : List String}
    (sameTests : ∀ base?, base? ∈ files.map baseName? ↔ base? ∈ others.map baseName?)
    (host : Host)
    (config : Config)
    (cycles : Nat) :
    decision host config cycles files = decision host config cycles others := by
  have sameNamed (base : String) :
      (∃ file ∈ files, IsFileOf base file) ↔ ∃ file ∈ others, IsFileOf base file := by
    simpa only [List.mem_map, baseName?_eq_some_iff] using sameTests (some base)
  have sameStrays :
      (∀ file ∈ files, ∃ base, IsFileOf base file) ↔
        ∀ file ∈ others, ∃ base, IsFileOf base file := by
    have stray := not_congr (sameTests none)
    simpa [← Option.isSome_iff_ne_none, Option.isSome_iff_exists, baseName?_eq_some_iff]
      using stray
  rw [Bool.eq_iff_iff, decision_eq_true_iff, decision_eq_true_iff, sameStrays]
  simp only [sameNamed]

/--
A check of files says yes exactly if each of them is the listing or the source of a test
and every test with such a file succeeds; a test that was run succeeds exactly if it has
assertions and as many of them hold as there are. Order, repetition and the choice
between the two files of a test do not matter, and every test is run once, in the order in
which the files name them first. The command that checks the files ends with this answer
once it has reported on the tests, in that order.
-/
theorem check_decides_tests
    (host : Host)
    (config : Config)
    (cycles : Nat)
    (files : List String) :
    (decision host config cycles files = true ↔
      (∀ file ∈ files, ∃ base, IsFileOf base file) ∧
        ∀ base, (∃ file ∈ files, IsFileOf base file) → Succeeds host config cycles base) ∧
      (∀ base test,
        runTest host config cycles base = .ok test →
          (Succeeds host config cycles base ↔
            0 < (Tally.ofVerdicts test.verdicts).total ∧
              (Tally.ofVerdicts test.verdicts).passed =
                (Tally.ofVerdicts test.verdicts).total)) ∧
      (∀ others,
        others.Perm files →
          decision host config cycles others = decision host config cycles files) ∧
      (∀ more,
        more ⊆ files →
          decision host config cycles (files ++ more) = decision host config cycles files) ∧
      (∀ base first second,
        IsFileOf base first →
          IsFileOf base second →
            decision host config cycles (first :: files) =
              decision host config cycles (second :: files)) ∧
      (∀ base,
        base ∈ (runTests host config cycles files).map Prod.fst ↔
          ∃ file ∈ files, IsFileOf base file) ∧
      ((runTests host config cycles files).map Prod.fst).Nodup ∧
      (((runTests host config cycles files).map Prod.fst).Pairwise fun first second =>
        firstPlace files first < firstPlace files second) ∧
      ∀ options around loaded,
        around.host = host →
          options.files = files →
          Loading.config host options.config? = .ok loaded →
          config = { loaded with
            traceInstructions := loaded.traceInstructions || around.trace } →
          cycles = options.maxCycles?.getD config.maxCycles →
            Session.Leaves (Session.checkTests options) around
              (decision host config cycles files)
              (String.join <| (runTests host config cycles files).map fun (_, run) =>
                Session.reportText run) := by
  have bases : (runTests host config cycles files).map Prod.fst = baseNames files := by
    simp [runTests, Function.comp_def]
  rw [bases]
  refine ⟨decision_eq_true_iff, ?_, ?_, ?_, ?_, fun base => mem_baseNames_iff,
    nodup_baseNames files, pairwise_baseNames files, ?_⟩
  · intro base test run
    rw [← hasPassed_runTest_iff, run, hasPassed, TestRun.passed_eq_allPassed, Tally.allPassed]
    simp
  · intro others permuted
    exact decision_congr (fun base? => (permuted.map baseName?).mem_iff) host config cycles
  · intro more repeated
    refine decision_congr (fun base? => ?_) host config cycles
    rw [List.map_append, List.mem_append]
    exact or_iff_left_of_imp fun again => List.map_subset baseName? repeated again
  · intro base first second isFirst isSecond
    refine decision_congr (fun base? => ?_) host config cycles
    rw [List.map_cons, List.map_cons, baseName?_eq_some_iff.mpr isFirst,
      baseName?_eq_some_iff.mpr isSecond]
  · rintro options around loaded rfl rfl found configured limited
    exact Session.leaves_checkTests found configured limited

/-- A directory with the source of one test, which asserts what its instruction does. -/
def addHost : Host where
  read path :=
    if path = "add_info.s" then
      .ok (Text.ofString "addi $t0, $zero, 5\n#assert(sim.inspect_mem(rf)[8] == 5)")
    else
      .error .notFound
  refusal? _ := none

/-- The test succeeds, and does so under either name and when it is named again. -/
theorem addHost_succeeds :
    decision addHost {} 10 ["add_info.s"] = true ∧
      decision addHost {} 10 ["add.txt"] = true ∧
      decision addHost {} 10 ["add_info.s", "add_info.s"] = true ∧
      (∃ test,
        runTest addHost {} 10 "add" = .ok test ∧
          (Tally.ofVerdicts test.verdicts).passed = (Tally.ofVerdicts test.verdicts).total) ∧
      ∃ output,
        Session.Leaves (Session.checkTests ⟨["add_info.s"], some 10, none⟩) ⟨addHost, false⟩
          true output := by
  have passed : hasPassed (runTest addHost {} 10 "add") = true := by
    decide +kernel
  have succeeds : Succeeds addHost {} 10 "add" :=
    hasPassed_runTest_iff.mp passed
  obtain ⟨decided, counted, _, repeated, _, _, _, _, commanded⟩ :=
    check_decides_tests addHost {} 10 ["add_info.s"]
  obtain ⟨_, _, _, _, either, _⟩ := check_decides_tests addHost {} 10 []
  have named : baseName? "add_info.s" = some "add" :=
    baseName?_eq_some_iff.mpr (.inr (by decide))
  have said : decision addHost {} 10 ["add_info.s"] = true := by
    refine decided.mpr ⟨?_, ?_⟩
    · intro file member
      obtain rfl := List.mem_singleton.mp member
      exact ⟨"add", baseName?_eq_some_iff.mp named⟩
    · rintro base ⟨file, member, isFile⟩
      obtain rfl := List.mem_singleton.mp member
      rw [← baseName?_eq_some_iff, named] at isFile
      obtain rfl := Option.some.inj isFile
      exact succeeds
  have answered :=
    commanded ⟨["add_info.s"], some 10, none⟩ ⟨addHost, false⟩ {} rfl rfl rfl rfl rfl
  rw [said] at answered
  refine ⟨said, ?_, ?_, ?_, _, answered⟩
  · rw [either "add" "add.txt" "add_info.s" (.inl (by decide)) (.inr (by decide)), said]
  · rw [← said]
    exact repeated ["add_info.s"] (by simp)
  · cases run : runTest addHost {} 10 "add" with
    | error failure =>
        rw [run] at passed
        simp [hasPassed] at passed
    | ok test =>
        exact ⟨test, rfl, ((counted "add" test run).mp succeeds).2⟩

end Check

end TinyMips
