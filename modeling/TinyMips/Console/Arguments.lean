import TinyMips.Text.Numeral

namespace TinyMips

/-!
# Command-line arguments

The arguments select one of three commands, or ask for the version. Options may
stand before or after the files they go with, and a value may follow its option
as a word of its own or after an equals sign. A text that no command takes is
refused as a whole.
-/

/-- The options of running a program. -/
structure RunOptions where
  file : String
  maxCycles? : Option Nat
  config? : Option String
  untilIdle : Bool
  startLabel? : Option String
  json : Bool
  /-- The sections of the report; none asks for all of them. -/
  sections : List String
  deriving DecidableEq, Repr

/-- The options of assembling a program. -/
structure AssembleOptions where
  file : String
  output? : Option String
  disassemble : Bool
  deriving DecidableEq, Repr

/-- The options of checking tests. -/
structure CheckOptions where
  files : List String
  maxCycles? : Option Nat
  config? : Option String
  deriving DecidableEq, Repr

/-- What to do. -/
inductive Command where
  /-- Run a program and print its final state. -/
  | run (options : RunOptions)
  /-- Assemble a program and print or write its listing. -/
  | assemble (options : AssembleOptions)
  /-- Run tests and check their assertions. -/
  | check (options : CheckOptions)
  deriving DecidableEq, Repr

/-- A command, and whether to log every completed instruction. -/
structure Invocation where
  trace : Bool
  command : Command
  deriving DecidableEq, Repr

/-- What the arguments ask for. -/
inductive Request where
  /-- The name and version of the program. -/
  | version
  /-- A command to be carried out. -/
  | command (invocation : Invocation)
  deriving DecidableEq, Repr

namespace Arguments

/-- How often an option may be given, and whether it has a value. -/
inductive OptionKind where
  /-- No value, at most once. -/
  | flag
  /-- A value, at most once. -/
  | single
  /-- A value, any number of times. -/
  | repeated
  deriving DecidableEq, Repr

/-- An option: its long name, its letter if it has one, and its kind. -/
structure OptionSpec where
  name : String
  letter? : Option Char
  kind : OptionKind
  deriving DecidableEq, Repr

/-- The arguments of a command, sorted: options with their values in order, and files. -/
structure Sorted where
  options : List (String × String) := []
  files : List String := []
  deriving DecidableEq, Repr

namespace Sorted

/-- The option was given. -/
def has (sorted : Sorted) (name : String) : Bool :=
  sorted.options.any fun (given, _) => given = name

/-- The values of an option. -/
def values (sorted : Sorted) (name : String) : List String :=
  (sorted.options.filter fun (given, _) => given = name).map Prod.snd

/-- The value of an option that may be given once. -/
def value? (sorted : Sorted) (name : String) : Option String :=
  (sorted.values name).head?

/-- Add an option, unless it was given already and may be given only once. -/
def add? (sorted : Sorted) (spec : OptionSpec) (value : String) : Option Sorted :=
  if spec.kind ≠ .repeated && sorted.has spec.name then
    none
  else
    some { sorted with options := sorted.options ++ [(spec.name, value)] }

/-- Add a file. -/
def addFile (sorted : Sorted) (file : String) : Sorted :=
  { sorted with files := sorted.files ++ [file] }

end Sorted

/-- An argument that looks like an option. -/
def isOptionLike (argument : String) : Bool :=
  argument.startsWith "-" && argument ≠ "-"

/-- An argument taken apart: the option it names and the value that is part of it. -/
structure Named where
  spec : OptionSpec
  value? : Option String
  deriving DecidableEq, Repr

/-- A text split at its first equals sign. -/
def splitAtEquals (text : Text) : Text × Option Text :=
  match text.dropWhile (· ≠ '=') with
  | [] => (text, none)
  | _ :: value => (text.takeWhile (· ≠ '='), some value)

/-- The option that an argument names, if the command has it. -/
def named? (specs : List OptionSpec) (argument : String) : Option Named :=
  match argument.toList with
  | '-' :: '-' :: long =>
      let (name, value?) := splitAtEquals long
      (specs.find? fun spec => spec.name = name.asString).map fun spec =>
        ⟨spec, value?.map Text.asString⟩
  | '-' :: letter :: rest =>
      (specs.find? fun spec => spec.letter? = some letter).map fun spec =>
        match rest with
        | [] => ⟨spec, none⟩
        | '=' :: value => ⟨spec, some (Text.asString value)⟩
        | value => ⟨spec, some (Text.asString value)⟩
  | _ => none

/-- Sort the arguments of a command with the given options. -/
def sort? (specs : List OptionSpec) (sorted : Sorted) : List String → Option Sorted
  | [] => some sorted
  | argument :: rest =>
      if argument = "--" then
        some { sorted with files := sorted.files ++ rest }
      else if !isOptionLike argument then
        sort? specs (sorted.addFile argument) rest
      else
        match named? specs argument with
        | none => none
        | some ⟨spec, value?⟩ =>
            match spec.kind, value?, rest with
            | .flag, none, rest =>
                match sorted.add? spec "" with
                | none => none
                | some sorted => sort? specs sorted rest
            | .flag, some _, _ => none
            | _, some value, rest =>
                match sorted.add? spec value with
                | none => none
                | some sorted => sort? specs sorted rest
            | _, none, [] => none
            | _, none, value :: rest =>
                if isOptionLike value then
                  none
                else
                  match sorted.add? spec value with
                  | none => none
                  | some sorted => sort? specs sorted rest

/-- The option that every command has. -/
def traceOption : OptionSpec := ⟨"trace", none, .flag⟩

/-- The options of the command that runs a program. -/
def runSpecs : List OptionSpec :=
  [traceOption, ⟨"max-cycles", none, .single⟩, ⟨"config", none, .single⟩,
    ⟨"until-idle", none, .flag⟩, ⟨"entry", none, .single⟩, ⟨"json", none, .flag⟩,
    ⟨"stats", none, .repeated⟩]

/-- The options of the command that assembles a program. -/
def assembleSpecs : List OptionSpec :=
  [traceOption, ⟨"output", some 'o', .single⟩, ⟨"disasm", none, .flag⟩]

/-- The options of the command that checks tests. -/
def checkSpecs : List OptionSpec :=
  [traceOption, ⟨"max-cycles", none, .single⟩, ⟨"config", none, .single⟩]

/-- A number of cycles: digits that may follow a plus sign, within 64 bits. -/
def cycles? (value : String) : Option Nat :=
  let digits := Text.dropMark '+' value.toList
  let number := Numeral.value 10 digits
  if Numeral.isDecimal digits && number < 0x10000000000000000 then some number else none

/-- A path is any text but the empty one. -/
def path? (value : String) : Option String :=
  if value = "" then none else some value

/-- An option's value read in some way; an option that is not given is left out. -/
def optional? (read? : String → Option α) (value? : Option String) : Option (Option α) :=
  match value? with
  | none => some none
  | some value => (read? value).map some

/-- The one file of a command that takes one. -/
def onlyFile? (sorted : Sorted) : Option String :=
  match sorted.files with
  | [file] => path? file
  | _ => none

/-- The command that runs a program. -/
def run? (sorted : Sorted) : Option Command := do
  let file ← onlyFile? sorted
  let maxCycles? ← optional? cycles? (sorted.value? "max-cycles")
  let config? ← optional? path? (sorted.value? "config")
  return .run
    { file, maxCycles?, config?
      untilIdle := sorted.has "until-idle"
      startLabel? := sorted.value? "entry"
      json := sorted.has "json"
      sections := (sorted.values "stats").flatMap fun value => value.splitOn "," }

/-- The command that assembles a program. -/
def assemble? (sorted : Sorted) : Option Command := do
  let file ← onlyFile? sorted
  let output? ← optional? path? (sorted.value? "output")
  return .assemble { file, output?, disassemble := sorted.has "disasm" }

/-- The command that checks tests. -/
def check? (sorted : Sorted) : Option Command := do
  let maxCycles? ← optional? cycles? (sorted.value? "max-cycles")
  let config? ← optional? path? (sorted.value? "config")
  let files ← sorted.files.mapM path?
  if files.isEmpty then none else return .check { files, maxCycles?, config? }

/-- The invocation of a command with options and a reading of its sorted arguments. -/
def invocation?
    (trace : Bool)
    (specs : List OptionSpec)
    (read? : Sorted → Option Command)
    (arguments : List String) :
    Option Invocation := do
  let sorted ← sort? specs {} arguments
  return ⟨trace || sorted.has traceOption.name, ← read? sorted⟩

/-- The invocation of a named command. -/
def command? (trace : Bool) : List String → Option Invocation
  | "run" :: arguments => invocation? trace runSpecs run? arguments
  | "asm" :: arguments => invocation? trace assembleSpecs assemble? arguments
  | "check" :: arguments => invocation? trace checkSpecs check? arguments
  | _ => none

/-- An argument that asks for the version, whatever letters follow its own. -/
def asksVersion (argument : String) : Bool :=
  argument = "--version" || argument.startsWith "-V"

/-- The request of arguments, of which the first one decides what they ask for. -/
def request? (trace : Bool) : List String → Option Request
  | [] => none
  | first :: rest =>
      if asksVersion first then some .version
      else (command? trace (first :: rest)).map .command

/-- The request that arguments make, if they make one. -/
def parse? : List String → Option Request
  | "--trace" :: arguments => request? true arguments
  | arguments => request? false arguments

end Arguments

end TinyMips
