import TinyMips.Assertion.Basic
import TinyMips.Decimal.Fixed

namespace TinyMips

/-!
# Verdicts

Every assertion of a test gets a verdict, and a tally counts them. A test passes
if it has an assertion and all its assertions hold.
-/

/-- What became of an assertion. -/
inductive Status where
  /-- The assertion holds. -/
  | pass
  /-- The assertion does not hold. -/
  | fail
  /-- The assertion was not understood. -/
  | invalid
  deriving DecidableEq, Repr

/-- The mark of a status in a report, two characters wide. -/
def Status.mark : Status → Text
  | .pass => Text.ofString "OK"
  | .fail => Text.ofString "X "
  | .invalid => Text.ofString "!!"

/-- The verdict on one assertion. -/
structure Verdict where
  status : Status
  actual? : Option Word
  text : Text
  deriving DecidableEq, Repr

namespace Verdict

/-- The verdict on an assertion in a snapshot. -/
def of (snapshot : Snapshot) : Except MalformedAssertion Assertion → Verdict
  | .ok assertion =>
      let status := if assertion.holds snapshot then .pass else .fail
      ⟨status, some (assertion.actual snapshot), assertion.text⟩
  | .error error => ⟨.invalid, none, error.text⟩

/-- The value that a verdict shows. -/
def shown (verdict : Verdict) : Text :=
  match verdict.actual? with
  | some word => word.shortHex
  | none => Text.ofString "BAD ASSERT"

/-- The verdict as a line of the report, without its ending. -/
def line (verdict : Verdict) : Text :=
  verdict.status.mark ++ [' ', ' '] ++ Text.padLeft 10 verdict.shown ++ [' ', ' ']
    ++ verdict.text

end Verdict

/-- How many assertions there are, how many were understood and how many hold. -/
structure Tally where
  passed : Nat
  valid : Nat
  total : Nat
  deriving DecidableEq, Repr

namespace Tally

/-- The tally of a list of verdicts. -/
def ofVerdicts (verdicts : List Verdict) : Tally where
  passed := verdicts.countP fun verdict => verdict.status = .pass
  valid := verdicts.countP fun verdict => verdict.status ≠ .invalid
  total := verdicts.length

/-- The assertions that were not understood, as a 64-bit count. -/
def invalid (tally : Tally) : Nat :=
  (BitVec.ofNat 64 tally.total - BitVec.ofNat 64 tally.valid).toNat

/-- There is an assertion, and all of them hold. -/
def allPassed (tally : Tally) : Bool :=
  tally.total > 0 && tally.passed = tally.total

/-- The share of the assertions understood that hold, if any were understood. -/
def percentage? (tally : Tally) : Option Float :=
  if tally.valid > 0 then
    some (100 * tally.passed.toUInt64.toFloat / tally.valid.toUInt64.toFloat)
  else
    none

end Tally

/-- The verdicts on the assertions of a test in a snapshot. -/
def Assertion.evaluate
    (assertions : List (Except MalformedAssertion Assertion))
    (snapshot : Snapshot) :
    List Verdict :=
  assertions.map (Verdict.of snapshot)

end TinyMips
