import TinyMips.Console.Session

namespace TinyMips

/-!
# Command line

The program itself: it reads the files that its command may need, carries out
the command, stores the file that the command writes, and prints the transcript.
-/

namespace CommandLine

/-- What is printed when the arguments ask for no command. -/
def usage : String :=
  "usage: [--trace] run FILE [--max-cycles N] [--config FILE] [--until-idle]\n"
    ++ "           [--entry LABEL] [--json] [--stats SECTIONS]\n"
    ++ "       [--trace] asm FILE [-o FILE] [--disasm]\n"
    ++ "       [--trace] check FILE... [--max-cycles N] [--config FILE]\n"
    ++ "       --version\n"

/-- The number of a system error, which some calls report negated. -/
def errorNumber (code : UInt32) : Nat :=
  if code < 0x80000000 then code.toNat else (0 - code).toNat

/-- The reason behind a failed system call on a file. -/
def fileError : IO.Error → FileError
  | .noFileOrDirectory .. => .notFound
  | .inappropriateType _ code _ => if errorNumber code = 21 then .isDirectory else .notDirectory
  | .invalidArgument _ code details =>
      match errorNumber code with
      | 36 => .nameTooLong
      | 40 => .unreachable "Too many levels of symbolic links (os error 40)"
      | _ => .other details
  | .permissionDenied _ code _ => .other s!"Permission denied (os error {errorNumber code})"
  | error => .other (toString error)

/-- A path can be followed to a file or directory, whether or not that may be read. -/
def canFollow (path : String) : IO Bool := do
  try
    discard (IO.FS.realPath path)
    return true
  catch _ =>
    return false

/-- Read the text of a file; a refusal on the way there is told from one by the file itself. -/
def readText (path : String) : IO (Except FileError Text) := do
  try
    match String.fromUTF8? (← IO.FS.readBinFile path) with
    | some text => return .ok text.toList
    | none => return .error .notText
  catch error =>
    match fileError error with
    | .other reason =>
        return .error (if ← canFollow path then .other reason else .unreachable reason)
    | known => return .error known

/-- Store a file, and return the reason if that fails. -/
def store (file : FileWrite) : IO (Option FileError) := do
  try
    IO.FS.writeFile file.path file.text.asString
    return none
  catch error =>
    return some (fileError error)

/-- Carry out a request; if its file cannot be written, the outcome is that of a refusal. -/
def perform (request : Request) : IO Outcome := do
  let readings ← request.paths.mapM fun path => return (path, ← readText path)
  let outcome := request.carryOut (.ofReadings readings none)
  match outcome.transcript.write? with
  | none => return outcome
  | some file =>
      match ← store file with
      | none => return outcome
      | some error => return request.carryOut (.ofReadings readings (some error))

/-- Do what the arguments ask for, and return the exit code. -/
def run (arguments : List String) : IO UInt32 := do
  match Arguments.parse? arguments with
  | none =>
      IO.eprint usage
      return 2
  | some request =>
      let outcome ← perform request
      IO.print outcome.transcript.output
      IO.eprint outcome.transcript.diagnostics
      return outcome.exitCode.toUInt32

end CommandLine

end TinyMips

/-- The entry point of the program. -/
def main (arguments : List String) : IO UInt32 :=
  TinyMips.CommandLine.run arguments
