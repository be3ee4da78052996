import TinyMips.Config.Basic
import TinyMips.Json.Number
import TinyMips.Json.String
import TinyMips.Text.Quoted

namespace TinyMips

/-!
# Configuration files

A configuration is a JSON object with the members `general` and `memory`, each an
object of its own. Members may be left out and then keep their defaults. Each of
the three may also be an array of its members in their order. What is read first
and found wrong first is reported.
-/

/-- A member of a configuration that is not what it should be. -/
inductive ConfigMismatch where
  /-- A member that does not exist here. -/
  | unknownField (name : Text) (known : List String)
  /-- A member that was given before. -/
  | duplicateField (name : String)
  /-- A value of the wrong type. -/
  | wrongType (found expected : String)
  /-- An integer that does not fit. -/
  | wrongValue (found : Int) (expected : String)
  deriving DecidableEq, Repr

namespace ConfigMismatch

/-- A list of names as a message shows what was expected. -/
def oneOf : List String → String
  | [only] => s!"`{only}`"
  | [first, second] => s!"`{first}` or `{second}`"
  | names => "one of " ++ String.intercalate ", " (names.map fun name => s!"`{name}`")

/-- The wording of a mismatch. -/
def message : ConfigMismatch → String
  | unknownField name known => s!"unknown field `{name.asString}`, expected {oneOf known}"
  | duplicateField name => s!"duplicate field `{name}`"
  | wrongType found expected => s!"invalid type: {found}, expected {expected}"
  | wrongValue found expected => s!"invalid value: integer `{found}`, expected {expected}"

end ConfigMismatch

/-- The reason a text is no configuration, and its place in the text. -/
abbrev ConfigError := Json.Located (Json.Fault ⊕ ConfigMismatch)

/-- The wording of a configuration error, without its place. -/
def ConfigError.reason (error : ConfigError) : String :=
  match error.error with
  | .inl fault => fault.message
  | .inr mismatch => mismatch.message

/-- The wording of a configuration error. -/
def ConfigError.message (error : ConfigError) : String :=
  s!"{error.reason} {error.place.text}"

namespace Config

/-- A reader of a part of a configuration. -/
abbrev Reader := Json.Reader ConfigMismatch

open Json.Reader

/-- Describe the value that comes next; arrays and objects are not looked into. -/
def describeNext (c : Char) : Reader String := do
  match c with
  | 'n' =>
      advance
      word ['u', 'l', 'l']
      return "null"
  | 't' =>
      advance
      word ['r', 'u', 'e']
      return "boolean `true`"
  | 'f' =>
      advance
      word ['a', 'l', 's', 'e']
      return "boolean `false`"
  | '-' =>
      advance
      return (← number true).description
  | '"' => return s!"string {(Text.quoted (← string)).asString}"
  | '[' => return "sequence"
  | '\x7b' => return "map"
  | c => if c.isDigit then return (← number false).description else failPast .missingValue

/-- Stop because the value that comes next is not of the expected type. -/
def rejectNext (c : Char) (expected : String) : Reader α := do
  let found ← describeNext c
  reject (.wrongType found expected)

/-- The beginning of the value that comes next. -/
def beginValue : Reader Char := do
  match ← peekToken? with
  | none => failHere .endInValue
  | some c => return c

/-- A truth value. -/
def truth : Reader Bool := do
  match ← beginValue with
  | 't' =>
      advance
      word ['r', 'u', 'e']
      return true
  | 'f' =>
      advance
      word ['a', 'l', 's', 'e']
      return false
  | c => rejectNext c "a boolean"

/-- A number as a natural number below a bound. -/
def checkNatural (bound : Nat) (expected : String) : Json.Number → Reader Nat
  | .natural value =>
      if value < bound then return value else reject (.wrongValue value expected)
  | .negative value => reject (.wrongValue value expected)
  | .double value => reject (.wrongType (Json.Number.double value).description expected)

/-- A natural number below a bound. -/
def natural (bound : Nat) (expected : String) : Reader Nat := do
  match ← beginValue with
  | '-' =>
      advance
      checkNatural bound expected (← number true)
  | c =>
      if c.isDigit then
        checkNatural bound expected (← number false)
      else
        rejectNext c expected

/-- A member of an object: its name, and how its value changes a configuration. -/
structure Field where
  name : String
  read : Config → Reader Config

/-- Whether an array has a further element; `first` says that none was read. -/
def hasElement (first : Bool) : Reader Bool := do
  match ← peekToken? with
  | none => failHere .endInArray
  | some ']' => return false
  | some ',' =>
      if first then
        return true
      else
        advance
        match ← peekToken? with
        | none => failHere .endInValue
        | some ']' => failPast .trailingComma
        | some _ => return true
  | some _ => if first then return true else failPast .missingArrayComma

/-- The members of an array that stands for an object. -/
def elements (first : Bool) : List Field → Config → Reader Config
  | [], config => return config
  | field :: fields, config => do
      if ← hasElement first then
        let config ← field.read config
        elements false fields config
      else
        return config

/-- The end of an array whose members were all read. -/
def endArray : Reader Unit := do
  match ← peekToken? with
  | none => failHere .endInArray
  | some ']' => advance
  | some ',' =>
      advance
      match ← peekToken? with
      | some ']' => failPast .trailingComma
      | _ => failPast .trailingText
  | some _ => failPast .trailingText

/-- Whether an object has a further member; `first` says that none was read. -/
def hasMember (first : Bool) : Reader Bool := do
  match ← peekToken? with
  | none => failHere .endInObject
  | some '\x7d' => return false
  | some c =>
      if first then
        if c = '"' then return true else failPast .keyNotString
      else if c = ',' then
        advance
        match ← peekToken? with
        | none => failHere .endInValue
        | some '"' => return true
        | some '\x7d' => failPast .trailingComma
        | some _ => failPast .keyNotString
      else
        failPast .missingObjectComma

/-- Stop because of a member's name, at the end of the object if that comes next. -/
def rejectName (mismatch : ConfigMismatch) : Reader α := do
  if (← peekToken?) = some '\x7d' then
    advance
  reject mismatch

/-- The colon after a name. -/
def colon : Reader Unit := do
  match ← peekToken? with
  | none => failHere .endInObject
  | some ':' => advance
  | some _ => failPast .missingColon

/-- The members of an object; `left` bounds how many more there can be. -/
def members (fields : List Field) (seen : List String) : Nat → Config → Reader Config
  | 0, config => return config
  | left + 1, config => do
      if ← hasMember seen.isEmpty then
        let name ← string
        match fields.find? fun field => Text.ofString field.name = name with
        | none => rejectName (.unknownField name (fields.map Field.name))
        | some field =>
            if seen.contains field.name then
              rejectName (.duplicateField field.name)
            else
              colon
              let config ← field.read config
              members fields (field.name :: seen) left config
      else
        return config

/-- A group of members, as an object or as an array. -/
def group (expected : String) (fields : List Field) (config : Config) : Reader Config := do
  match ← beginValue with
  | '[' =>
      advance
      let config ← elements true fields config
      endArray
      return config
  | '\x7b' =>
      advance
      let config ← members fields [] (fields.length + 1) config
      advance
      return config
  | c => rejectNext c expected

/-- The general settings. -/
def general : Config → Reader Config :=
  group "struct GeneralConfig"
    [⟨"trace_instructions", fun config => return { config with
        traceInstructions := ← truth }⟩,
      ⟨"start_pc", fun config => return { config with
        startAddress := BitVec.ofNat 32 (← natural 0x100000000 "u32") }⟩,
      ⟨"max_cycles", fun config => return { config with
        maxCycles := ← natural 0x10000000000000000 "u64" }⟩]

/-- The settings of the memory. -/
def memory : Config → Reader Config :=
  group "struct MemoryConfig"
    [⟨"size_words", fun config => return { config with
        memoryWords := ← natural 0x10000000000000000 "usize" }⟩]

/-- A whole configuration, and nothing after it. -/
def document : Reader Config := do
  let config ← group "struct Config" [⟨"general", general⟩, ⟨"memory", memory⟩] {}
  match ← peekToken? with
  | none => return config
  | some _ => failPast .trailingText

/-- The configuration that a JSON text holds, or the first error in it. -/
def ofJson (text : Text) : Except ConfigError Config :=
  (StateT.run document (Json.Cursor.ofText text)).map Prod.fst

end Config

end TinyMips
