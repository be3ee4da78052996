import TinyMips.Config.Reader
import TinyMips.Console.Files
import TinyMips.Log
import TinyMips.Program.Listing

namespace TinyMips

/-!
# Loading

Reading configurations, sources and listings from files. A failure says what was
being done and then, one after the other, why it could not be done.
-/

/-- A command that failed: what it could not do, and the causes from the nearest one on. -/
structure Failure where
  message : String
  causes : List String
  deriving DecidableEq, Repr

namespace Failure

/-- The failure in one line. -/
def oneLine (failure : Failure) : String :=
  String.intercalate ": " (failure.message :: failure.causes)

/-- A cause with a blank margin and a mark before its first line. -/
def causeText (mark margin cause : String) : String :=
  mark ++ String.intercalate ("\n" ++ margin) (cause.splitOn "\n") ++ "\n"

/-- The failure as a command ends with it. -/
def report (failure : Failure) : String :=
  let causes :=
    match failure.causes with
    | [] => ""
    | [cause] => "\nCaused by:\n" ++ causeText "    " "    " cause
    | causes =>
        "\nCaused by:\n" ++ String.join (causes.zipIdx.map fun (cause, index) =>
          let number := (Text.padLeft 5 (Numeral.decimal index)).asString
          causeText s!"{number}: " "       " cause)
  s!"Error: {failure.message}\n{causes}"

end Failure

/-- The causes behind a file that could not be read as program text. -/
def FileError.causes (error : FileError) : List String :=
  ["failed to read listing", error.message]

/-- The causes behind a listing that holds no program. -/
def ListingError.causes (error : ListingError) : List String :=
  match error with
  | .illegal _ word => [error.message, illegalInstructionMessage word]
  | .badWord .. | .empty => [error.message]

namespace Loading

/-- The result of reading, with what was being done and the causes where it failed. -/
def orFail (doing : String) (causes : ε → List String) : Except ε α → Except Failure α
  | .ok result => .ok result
  | .error error => .error ⟨doing, causes error⟩

/-- The configuration in a file, or the default one if there is no path. -/
def config (host : Host) (path? : Option String) : Except Failure Config :=
  match path? with
  | none => .ok {}
  | some path => do
      let text ← orFail s!"failed to read config {path}" (fun error => [error.message])
        (host.read path)
      orFail s!"invalid config {path}" (fun error => [ConfigError.message error])
        (Config.ofJson text)

/-- The program of the listing in a file. -/
def listing (host : Host) (path : String) : Except Failure Program := do
  let doing := s!"failed to load listing {path}"
  let text ← orFail doing FileError.causes (host.read path)
  orFail doing ListingError.causes (Program.ofListing text)

/-- What is logged while a listing is loaded. -/
def listingEvents (host : Host) (path : String) : List LogEvent :=
  match host.read path with
  | .error _ => []
  | .ok text =>
      match Listing.read text with
      | .error _ => []
      | .ok words =>
          [{ level := .debug
             message := "loaded listing"
             fields := [⟨"path", path⟩, .ofNat "words" words.length] }]

/-- The last part of a path that is a name. -/
def fileName? (path : String) : Option String :=
  match ((FileTree.parts path).filter fun part => part ≠ "" && part ≠ ".").getLast? with
  | some ".." => none
  | name? => name?

/-- A path names a listing: its last part has something before a final `.txt`. -/
def isListing (path : String) : Bool :=
  match fileName? path with
  | none => false
  | some name => 4 < name.length && name.endsWith ".txt"

/-- The program in a file, which is a listing or a source. -/
def program (host : Host) (path : String) : Except Failure Program := do
  if isListing path then
    listing host path
  else
    let source ← orFail s!"failed to read source {path}" FileError.causes (host.read path)
    orFail s!"failed to assemble {path}" (fun error => [AssemblyError.message error])
      (assemble source)

/-- What is logged while a program is loaded. -/
def programEvents (host : Host) (path : String) : List LogEvent :=
  if isListing path then
    listingEvents host path
  else
    match host.read path with
    | .error _ => []
    | .ok source => LogEvent.ofAssembly (assemble source)

end Loading

end TinyMips
