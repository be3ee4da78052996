import TinyMips.Console.Arguments
import TinyMips.Console.Check
import TinyMips.Machine.Report

namespace TinyMips

/-!
# Sessions

A session carries out one command. It can ask about files, and it leaves behind
a transcript: the results, the diagnostics, and a file to be written. A session
that fails keeps the transcript up to the failure.
-/

/-- A text to be stored in a file. -/
structure FileWrite where
  path : String
  text : Text
  deriving DecidableEq, Repr

/-- What a command leaves behind. -/
structure Transcript where
  /-- The results. -/
  output : String := ""
  /-- The log and the failures. -/
  diagnostics : String := ""
  /-- The file that the command writes. -/
  write? : Option FileWrite := none
  deriving DecidableEq, Repr

/-- What a command can look at: files, and whether its log is a full trace. -/
structure Surroundings where
  host : Host
  trace : Bool

/-- A part of a command: it looks around, adds to the transcript, and may fail. -/
abbrev Session := ReaderT Surroundings (ExceptT Failure (StateM Transcript))

namespace Session

/-- Add to the results. -/
def print (text : String) : Session Unit :=
  modify fun transcript => { transcript with output := transcript.output ++ text }

/-- Add to the diagnostics. -/
def note (text : String) : Session Unit :=
  modify fun transcript => { transcript with diagnostics := transcript.diagnostics ++ text }

/-- The least level of the events that a log shows. -/
def leastLevel (trace : Bool) : LogLevel :=
  if trace then .debug else .info

/-- Log the events that matter enough. -/
def log (events : List LogEvent) : Session Unit := do
  let least := leastLevel (← read).trace
  let shown := events.filter fun event => least.rank ≤ event.level.rank
  note (String.join (shown.map fun event => event.line ++ "\n"))

/-- Have a text stored in a file. -/
def write (path : String) (text : Text) : Session Unit := do
  match (← read).host.refusal? path with
  | some error => throw ⟨s!"failed to write {path}", [error.message]⟩
  | none => modify fun transcript => { transcript with write? := some ⟨path, text⟩ }

/--
Load a configuration. Completed instructions are traced if the configuration or the
command asks for it; only the log of a full trace shows them.
-/
def loadConfig (path? : Option String) : Session Config := do
  let around ← read
  let config ← ofExcept (Loading.config around.host path?)
  return { config with traceInstructions := config.traceInstructions || around.trace }

/-- Load a program. -/
def loadProgram (path : String) : Session Program := do
  let host := (← read).host
  log (Loading.programEvents host path)
  ofExcept (Loading.program host path)

/-! ## Running -/

/-- The failure of asking for a section that the report does not have. -/
def unknownSection (name : String) : Failure :=
  let names := String.intercalate ", " (ReportSection.all.map ReportSection.name)
  ⟨s!"unknown stats section `{name}` (expected one of {names})", []⟩

/-- Fail at the first name that is no section of the report. -/
def requireSections (names : List String) : Session Unit :=
  match names.find? fun name => !(ReportSection.all.map ReportSection.name).contains name with
  | some name => throw (unknownSection name)
  | none => pure ()

/-- The simulator of a program at a label, or at the configured start if no label is given. -/
def startOf
    (config : Config)
    (program : Program)
    (startLabel? : Option String) :
    Session Simulator :=
  let simulator := Simulator.new program config
  match startLabel? with
  | none => pure simulator
  | some label =>
      match simulator.withEntry? (Text.ofString label) with
      | some simulator => pure simulator
      | none => throw ⟨s!"entry label `{label}` is not defined", []⟩

/-- The event of a run that ended without an error. -/
def stopEvent (summary : RunSummary) : LogEvent where
  level := .info
  message :=
    match summary.stop with
    | .idle => "stopped: idle loop detected"
    | .cycleBudget => "stopped: cycle budget reached"
  fields := [.ofNat "cycles" summary.cycles]

/-- The event of a program that is about to run. -/
def loadEvent (path : String) (program : Program) : LogEvent where
  level := .info
  message := "loaded program"
  fields := [⟨"path", path⟩, .ofNat "instructions" program.size]

/-- Run a program and print its final state; after an error the state is a diagnostic. -/
def runProgram (options : RunOptions) : Session Unit := do
  let config ← loadConfig options.config?
  requireSections options.sections
  let program ← loadProgram options.file
  log [loadEvent options.file program]
  let start ← startOf config program options.startLabel?
  let cycles := options.maxCycles?.getD config.maxCycles
  if (← read).trace then
    log (if options.untilIdle then start.idleRunEvents cycles else start.stepEvents cycles)
  let (result, final) := if options.untilIdle then start.runUntilIdle cycles else start.run cycles
  let state := final.machine.dump.asString
  let report := final.machine.counters.report options.sections
  match result with
  | .error error =>
      note s!"\n[!] FATAL: {error.message}\n{state}{report}"
      throw ⟨"execution failed", [error.message]⟩
  | .ok summary =>
      log [stopEvent summary]
      print (if options.json then final.snapshot.json ++ "\n" else state)
      print report

/-! ## Assembling -/

/-- The event of a listing that was stored in a file. -/
def storeEvent (path : String) (program : Program) : LogEvent where
  level := .info
  message := "wrote listing"
  fields := [⟨"path", path⟩, .ofNat "words" program.size]

/-- Print or write the listing or the disassembly of a program. -/
def assembleFile (options : AssembleOptions) : Session Unit := do
  let program ← loadProgram options.file
  let text := if options.disassemble then program.disassembly else program.listing
  match options.output? with
  | none => print text.asString
  | some path =>
      write path text
      log [storeEvent path program]

/-! ## Checking -/

/-- The event of a file that belongs to no test. -/
def strayEvent (file : String) : LogEvent where
  level := .error
  message :=
    let name := (Text.quoted (Text.ofString file)).asString
    let endings := s!"{Check.listingSuffix} or {Check.sourceSuffix}"
    s!"filename {name} does not end in {endings}, skipping test"

/-- The event of a test that could not be run. -/
def skipEvent (failure : Failure) : LogEvent where
  level := .error
  message := s!"{failure.oneLine}, skipping test"

/-- Log and print what became of a test. -/
def reportTest (cycles : Nat) (base : String) (run : Except Failure Check.TestRun) :
    Session Unit := do
  let around ← read
  log (Check.programEvents around.host base)
  match run with
  | .error failure => log [skipEvent failure]
  | .ok test =>
      if around.trace then
        log (test.start.idleRunEvents cycles)
      log test.stopEvents
      print test.report

/-- Run tests, report on each, and say whether all is well. -/
def checkTests (options : CheckOptions) : Session Bool := do
  let config ← loadConfig options.config?
  let cycles := options.maxCycles?.getD config.maxCycles
  log ((Check.strays options.files).map strayEvent)
  let runs := Check.runTests (← read).host config cycles options.files
  runs.forM fun (base, run) => reportTest cycles base run
  return Check.passes options.files runs

/-! ## Commands -/

/-- Carry out a command, and say whether all is well. -/
def command : Command → Session Bool
  | .run options => do
      runProgram options
      return true
  | .assemble options => do
      assembleFile options
      return true
  | .check options => checkTests options

end Session

/-- A command that was carried out. -/
structure Outcome where
  /-- Zero if all is well. -/
  exitCode : Nat
  transcript : Transcript
  deriving DecidableEq, Repr

/-- The paths that a command may have to read. -/
def Command.paths : Command → List String
  | .run options => options.config?.toList ++ [options.file]
  | .assemble options => [options.file]
  | .check options =>
      options.config?.toList ++ (Check.baseNames options.files).flatMap fun base =>
        [base ++ Check.sourceSuffix, base ++ Check.listingSuffix]

/-- The paths that a request may have to read. -/
def Request.paths : Request → List String
  | .version => []
  | .command invocation => invocation.command.paths

/-- Carry out the command of an invocation. -/
def Invocation.carryOut (invocation : Invocation) (host : Host) : Outcome :=
  let session := Session.command invocation.command ⟨host, invocation.trace⟩
  let (result, transcript) := session.run.run {}
  match result with
  | .ok good => ⟨if good then 0 else 1, transcript⟩
  | .error failure =>
      ⟨1, { transcript with diagnostics := transcript.diagnostics ++ failure.report }⟩

/-- The name and version of the program. -/
def versionText : String := "mipsim 0.3.0\n"

/-- Carry out a request. -/
def Request.carryOut (request : Request) (host : Host) : Outcome :=
  match request with
  | .version => ⟨0, { output := versionText }⟩
  | .command invocation => invocation.carryOut host

end TinyMips
