import TinyMips.Decimal.Fixed
import TinyMips.Machine.Counters

namespace TinyMips

/-!
# Statistics reports

The counters as a report of four sections, each of which can be left out. The
wall clock is no part of a run, so the two lines that would show it hold a star.
-/

/-- A section of the statistics report. -/
inductive ReportSection where
  /-- Cycles and instructions. -/
  | summary
  /-- Shares of the instruction classes. -/
  | instructionMix
  /-- Branches. -/
  | branch
  /-- Writes to registers and memory. -/
  | writes
  deriving DecidableEq, Repr

namespace ReportSection

/-- Every section, in the order of the report. -/
def all : List ReportSection :=
  [.summary, .instructionMix, .branch, .writes]

/-- The name a section is asked for by. -/
def name : ReportSection → String
  | .summary => "summary"
  | .instructionMix => "instruction_mix"
  | .branch => "branch"
  | .writes => "writes"

/-- The sections that a list of names asks for; an empty list asks for all of them. -/
def wanted (names : List String) : List ReportSection :=
  if names.isEmpty then all else all.filter fun reportSection => names.contains reportSection.name

end ReportSection

namespace Counters

/-- A heavy line of the report. -/
def doubleRule : String := "==========================================================\n"

/-- A light line of the report. -/
def singleRule : String := "----------------------------------------------------------\n"

/-- A count as a double. -/
def asFloat (count : Nat) : Float :=
  count.toUInt64.toFloat

/-- The share of a count in all completed instructions, as a percentage. -/
def share (counters : Counters) (count : Nat) : Float :=
  asFloat count / asFloat (max counters.retired 1) * 100

/-- One line of the instruction mix. -/
def mixLine (counters : Counters) (name : String) (count : Nat) : String :=
  let padded := (Text.padRight 22 (Text.ofString name)).asString
  let percent := (Decimal.fixed 2 (counters.share count)).asString
  s!"  {padded} {count} ({percent}%)\n"

/-- The branches that were not taken, as a 64-bit count. -/
def branchesNotTaken (counters : Counters) : Nat :=
  (BitVec.ofNat 64 counters.branches - BitVec.ofNat 64 counters.branchesTaken).toNat

/-- The text of one section. -/
def sectionText (counters : Counters) : ReportSection → String
  | .summary =>
      "host_seconds             * s\n"
        ++ s!"sim_cycles               {counters.cycles}\n"
        ++ "sim_freq                 * kHz\n"
        ++ s!"sim_insts                {counters.retired}\n"
        ++ singleRule
  | .instructionMix =>
      "INSTRUCTION MIX\n"
        ++ counters.mixLine "op.alu" counters.alu
        ++ counters.mixLine "op.load" counters.loads
        ++ counters.mixLine "op.store" counters.stores
        ++ counters.mixLine "op.branch" counters.branches
        ++ singleRule
  | .branch =>
      "BRANCHES\n"
        ++ s!"  br.taken               {counters.branchesTaken}\n"
        ++ s!"  br.not_taken           {counters.branchesNotTaken}\n"
        ++ singleRule
  | .writes =>
      "ARCHITECTURAL WRITES\n"
        ++ s!"  wr.reg                 {counters.registerWrites}\n"
        ++ s!"  wr.zero_discarded      {counters.zeroWrites}\n"
        ++ s!"  wr.mem                 {counters.memoryWrites}\n"

/-- The report with the sections that a list of names asks for. -/
def report (counters : Counters) (names : List String) : String :=
  doubleRule ++ "MIPS SIMULATION STATISTICS\n" ++ doubleRule
    ++ String.join ((ReportSection.wanted names).map counters.sectionText)
    ++ doubleRule

end Counters

end TinyMips
