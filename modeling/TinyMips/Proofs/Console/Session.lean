import TinyMips.Console.Session

namespace TinyMips.Session

/-!
# What a check prints

A part of a command that succeeds leaves a value and adds to the results, whatever was
there before it. Such parts one after the other do so as well, with their results in
order; so a check reports on its tests in the order in which it runs them.
-/

variable {α β : Type} {around : Surroundings}

/-- A session succeeds with a value and adds a text to the results. -/
def Leaves
    (session : Session α)
    (around : Surroundings)
    (value : α)
    (output : String) :
    Prop :=
  ∀ transcript : Transcript,
    ∃ diagnostics,
      (session around).run.run transcript =
        (.ok value, { transcript with output := transcript.output ++ output, diagnostics })

theorem leaves_pure
    (value : α)
    (around : Surroundings) :
    Leaves (pure value) around value "" := by
  intro transcript
  refine ⟨transcript.diagnostics, ?_⟩
  rw [String.append_empty]
  rfl

theorem leaves_read (around : Surroundings) :
    Leaves read around around "" := by
  intro transcript
  refine ⟨transcript.diagnostics, ?_⟩
  rw [String.append_empty]
  rfl

/-- Printing leaves what is printed. -/
theorem leaves_print
    (text : String)
    (around : Surroundings) :
    Leaves (print text) around () text := by
  intro transcript
  exact ⟨transcript.diagnostics, rfl⟩

/-- Logging does not show in what is printed. -/
theorem leaves_log
    (events : List LogEvent)
    (around : Surroundings) :
    Leaves (log events) around () "" := by
  intro transcript
  simp only [String.append_empty]
  exact ⟨_, rfl⟩

/-- Two sessions in a row leave their output in that order. -/
theorem Leaves.bind
    {session : Session α}
    {next : α → Session β}
    {value : α}
    {result : β}
    {output more : String}
    (first : Leaves session around value output)
    (second : Leaves (next value) around result more) :
    Leaves (session >>= next) around result (output ++ more) := by
  intro transcript
  obtain ⟨diagnostics, ran⟩ := first transcript
  obtain ⟨later, ranLater⟩ :=
    second { transcript with output := transcript.output ++ output, diagnostics }
  refine ⟨later, ?_⟩
  change
    (StateT.bind (session around) (ExceptT.bindCont fun value => next value around)).run transcript =
      _
  simp only [StateT.run, ExceptT.run, StateT.bind] at ran ranLater ⊢
  rw [ran, ← String.append_assoc]
  exact ranLater

/-- What a session does after one that prints nothing. -/
theorem Leaves.after
    {session : Session α}
    {next : α → Session β}
    {value : α}
    {result : β}
    {output : String}
    (first : Leaves session around value "")
    (second : Leaves (next value) around result output) :
    Leaves (session >>= next) around result output := by
  simpa using first.bind second

/-- Giving another result does not change what is printed. -/
theorem Leaves.returning
    {session : Session α}
    {value : α}
    {output : String}
    (first : Leaves session around value output)
    (result : β) :
    Leaves (session >>= fun _ => pure result) around result output := by
  have both :
      Leaves (session >>= fun _ => pure result) around result (output ++ "") :=
    first.bind (leaves_pure result around)
  rwa [String.append_empty] at both

/-- A session for each item leaves the outputs in the order of the items. -/
theorem leaves_forM
    {items : List α}
    {visit : α → Session Unit}
    {text : α → String}
    (visited : ∀ item, Leaves (visit item) around () (text item)) :
    Leaves (items.forM visit) around () (String.join (items.map text)) := by
  induction items with
  | nil =>
      exact leaves_pure () around
  | cons item items inductionHypothesis =>
      rw [List.map_cons, String.join_cons]
      exact (visited item).bind inductionHypothesis

/--
Loading a configuration prints nothing, and tracing is on if the file or the command line
says so.
-/
theorem leaves_loadConfig
    {path? : Option String}
    {config : Config}
    (loaded : Loading.config around.host path? = .ok config) :
    Leaves (loadConfig path?) around
      { config with traceInstructions := config.traceInstructions || around.trace } "" := by
  refine (leaves_read around).after ?_
  rw [loaded]
  exact leaves_pure _ around

/-- What is printed about a test: nothing if it could not be run. -/
def reportText : Except Failure Check.TestRun → String
  | .ok test => test.report
  | .error _ => ""

/-- The report on a test is what is printed for it. -/
theorem leaves_reportTest
    (cycles : Nat)
    (base : String)
    (run : Except Failure Check.TestRun)
    (around : Surroundings) :
    Leaves (reportTest cycles base run) around () (reportText run) := by
  refine (leaves_read around).after ((leaves_log _ around).after ?_)
  cases run with
  | error failure =>
      exact leaves_log _ around
  | ok test =>
      have reported :
          Leaves (log test.stopEvents >>= fun _ => print test.report) around () test.report :=
        (leaves_log _ around).after (leaves_print _ around)
      simp only
      split
      · exact (leaves_log _ around).after reported
      · exact reported

/-- A check reports on each of its tests, in order, and then says whether all is well. -/
theorem leaves_checkTests
    {options : CheckOptions}
    {loaded config : Config}
    {cycles : Nat}
    (found : Loading.config around.host options.config? = .ok loaded)
    (configured :
      config = { loaded with traceInstructions := loaded.traceInstructions || around.trace })
    (limited : cycles = options.maxCycles?.getD config.maxCycles) :
    let runs := Check.runTests around.host config cycles options.files
    Leaves (checkTests options) around (Check.passes options.files runs)
      (String.join (runs.map fun (_, run) => reportText run)) := by
  subst configured limited
  refine (leaves_loadConfig found).after
    ((leaves_log _ around).after ((leaves_read around).after ?_))
  have each (test : String × Except Failure Check.TestRun) :
      Leaves (reportTest (options.maxCycles?.getD loaded.maxCycles) test.1 test.2) around ()
        (reportText test.2) :=
    leaves_reportTest _ test.1 test.2 around
  exact (leaves_forM each).returning _

end TinyMips.Session
