import TinyMips.Assertion.Reader
import TinyMips.Assertion.Verdict
import TinyMips.Console.Loading
import TinyMips.Simulation.Trace

namespace TinyMips

/-!
# Checking tests

A test is known by its base name. Its source, `<base>_info.s`, holds the
assertions; the listing `<base>.txt`, if there is one, is run in place of the
assembled source. A test passes if it can be run, has an assertion, and all its
assertions hold once the program idles, fails or has used its cycles.
-/

namespace Check

/-- The ending of the name of a listing. -/
def listingSuffix : String := ".txt"

/-- The ending of the name of a source. -/
def sourceSuffix : String := "_info.s"

/-- The base name of the test that a file belongs to. -/
def baseName? (file : String) : Option String :=
  let name := Text.ofString file
  ((Text.dropSuffix? (Text.ofString listingSuffix) name).or
    (Text.dropSuffix? (Text.ofString sourceSuffix) name)).map Text.asString

/-- The base names of the tests that files belong to, once each, in the order of the files. -/
def baseNames (files : List String) : List String :=
  (files.filterMap baseName?).foldl
    (fun names base => if names.contains base then names else names ++ [base]) []

/-- The files that belong to no test. -/
def strays (files : List String) : List String :=
  files.filter fun file => (baseName? file).isNone

/-- The text of a test's source. -/
def source (host : Host) (base : String) : Except Failure Text :=
  let path := base ++ sourceSuffix
  Loading.orFail s!"failed to read {path}" FileError.causes (host.read path)

/-- The program of a test: its listing if there is one, else its assembled source. -/
def program (host : Host) (base : String) (source : Text) : Except Failure Program :=
  let path := base ++ listingSuffix
  if host.exists path then
    Loading.listing host path
  else
    Loading.orFail s!"failed to assemble {base}{sourceSuffix}"
      (fun error => [AssemblyError.message error]) (assemble source)

/-- What is logged once a test has both a listing and a source. -/
def comparisonEvents (base : String) (listing : Program) :
    Except AssemblyError Program → List LogEvent
  | .ok assembled => LogEvent.ofSizes listing assembled
  | .error error =>
      let reason := s!"does not assemble ({error.message})"
      [{ level := .warn, message := s!"{base}{sourceSuffix} {reason}; running the listing" }]

/-- What is logged while the listing of a test is loaded beside its source. -/
def listingEvents (host : Host) (base : String) (assembled : Except AssemblyError Program) :
    List LogEvent :=
  let path := base ++ listingSuffix
  if host.exists path then
    Loading.listingEvents host path ++
      match Loading.listing host path with
      | .ok listing => comparisonEvents base listing assembled
      | .error _ => []
  else
    []

/-- What is logged while the program of a test is found. -/
def programEvents (host : Host) (base : String) : List LogEvent :=
  match source host base with
  | .error _ => []
  | .ok source =>
      let assembled := assemble source
      LogEvent.ofAssembly assembled ++ listingEvents host base assembled

/-- A test that was run: the simulator at the start, the result, and the verdicts at the end. -/
structure TestRun where
  base : String
  start : Simulator
  result : Except ExecutionError RunSummary
  verdicts : List Verdict

/-- Run a test. -/
def runTest (host : Host) (config : Config) (cycles : Nat) (base : String) :
    Except Failure TestRun := do
  let source ← source host base
  let program ← program host base source
  let start := Simulator.new program config
  let (result, final) := start.runUntilIdle cycles
  let verdicts := Assertion.evaluate (Assertion.collect source) final.snapshot
  return { base, start, result, verdicts }

/-- The tests that files name, each with its run. -/
def runTests (host : Host) (config : Config) (cycles : Nat) (files : List String) :
    List (String × Except Failure TestRun) :=
  (baseNames files).map fun base => (base, runTest host config cycles base)

namespace TestRun

/-- An assertion of the test was understood, and every one of them holds. -/
def passed (test : TestRun) : Bool :=
  (Tally.ofVerdicts test.verdicts).percentage?.isSome
    && test.verdicts.all fun verdict => verdict.status = .pass

/-- What the report says about the end of the run. -/
def stopText (test : TestRun) : String :=
  match test.result with
  | .ok ⟨cycles, .idle⟩ => s!"loop detected after {cycles} cycles\n"
  | _ => "warning: assertions may not be accurate\n"

/-- What is logged about the end of the run. -/
def stopEvents (test : TestRun) : List LogEvent :=
  match test.result with
  | .ok ⟨_, .idle⟩ => []
  | .ok ⟨cycles, .cycleBudget⟩ =>
      [{ level := .warn
         message := "cycle budget exhausted before the program idled"
         fields := [.ofNat "cycles" cycles] }]
  | .error error => [{ level := .error, message := error.message }]

/-- What the report says about the assertions that were not understood. -/
def invalidText (count : Nat) : String :=
  let plural := if count = 1 then "" else "s"
  s!"warning: {count} invalid assertion{plural} could not be evaluated\n"

/-- What the report says in the end. -/
def summaryText (test : TestRun) : String :=
  let tally := Tally.ofVerdicts test.verdicts
  match tally.percentage? with
  | none => "error: no valid assertions\n\n"
  | some percentage =>
      let percent := (Decimal.fixed 0 percentage).asString
      let remark :=
        if tally.invalid > 0 then invalidText tally.invalid
        else if tally.allPassed then "Congratulations!\n"
        else ""
      s!"\nSummary: passed {tally.passed}/{tally.valid} = {percent}%\n{remark}\n"

/-- The report of a test. -/
def report (test : TestRun) : String :=
  let lines := test.verdicts.map fun verdict => verdict.line.asString ++ "\n"
  s!"Running {test.base}\n" ++ test.stopText ++ "\nAssertions:\n" ++ String.join lines
    ++ test.summaryText

end TestRun

/-- A test could be run and passed. -/
def hasPassed : Except Failure TestRun → Bool
  | .ok test => test.passed
  | .error _ => false

/-- Every file belongs to a test, and every test passed. -/
def passes (files : List String) (runs : List (String × Except Failure TestRun)) : Bool :=
  (strays files).isEmpty && runs.all fun (_, run) => hasPassed run

end Check

end TinyMips
