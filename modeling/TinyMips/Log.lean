import TinyMips.Assembly.Basic
import TinyMips.Text.Terminal

namespace TinyMips

/-!
# Log events

What a run says about itself beside its results. Each event has a level, and a
reader of the log chooses the least level to see. The message of an event may
quote a text from outside, so it is written without commands to a terminal; its
fields are written as they are.
-/

/-- How much an event matters, the least first. -/
inductive LogLevel where
  /-- Detail for debugging. -/
  | debug
  /-- Progress. -/
  | info
  /-- Something that may not be meant. -/
  | warn
  /-- Something that went wrong. -/
  | error
  deriving DecidableEq, Repr

namespace LogLevel

/-- The level's place in the order of levels. -/
def rank : LogLevel → Nat
  | .debug => 0
  | .info => 1
  | .warn => 2
  | .error => 3

/-- The level as it begins a line of the log. -/
def name : LogLevel → String
  | .debug => "DEBUG"
  | .info => "INFO"
  | .warn => "WARN"
  | .error => "ERROR"

end LogLevel

/-- A named value that belongs to an event. -/
structure LogField where
  name : String
  value : String
  deriving DecidableEq, Repr

/-- The field as it stands in a line of the log. -/
def LogField.text (field : LogField) : String :=
  s!" {field.name}={field.value}"

/-- A field whose value is a number. -/
def LogField.ofNat (name : String) (value : Nat) : LogField :=
  ⟨name, (Numeral.decimal value).asString⟩

/-- One event of the log. -/
structure LogEvent where
  level : LogLevel
  message : String
  fields : List LogField := []
  deriving DecidableEq, Repr

namespace LogEvent

/-- The event as a line of the log, without its ending. -/
def line (event : LogEvent) : String :=
  let message := (Text.forTerminal (Text.ofString event.message)).asString
  s!"{event.level.name} {message}" ++ String.join (event.fields.map LogField.text)

/-- An assembly that succeeded. -/
def assembled (program : Program) : LogEvent where
  level := .debug
  message := "assemble: assembled program"
  fields := [.ofNat "instructions" program.size, .ofNat "labels" program.symbols.size]

/-- The event of an assembly, if it has one. -/
def ofAssembly : Except AssemblyError Program → List LogEvent
  | .ok program => [assembled program]
  | .error _ => []

/-- A listing and a source that differ in their numbers of instructions. -/
def sizesDiffer (listing source : Program) : LogEvent where
  level := .warn
  message := "instruction count mismatch between listing and source"
  fields := [.ofNat "listing" listing.size, .ofNat "source" source.size]

/-- The event of comparing the sizes of a listing and a source, if they differ. -/
def ofSizes (listing source : Program) : List LogEvent :=
  if listing.sizesAgree source then [] else [sizesDiffer listing source]

end LogEvent

end TinyMips
