import ScoreStore.Command.Instruction
import ScoreStore.Settings.Sections

/-! The settings of a server, and reading them from a settings file. -/

namespace ScoreStore

/-- How much a server tells about what it does. -/
inductive LogLevel where
  | error | warn | info | debug | trace
deriving DecidableEq, Repr

namespace LogLevel

/-- All levels, from the least to the most told. -/
def all : List LogLevel := [error, warn, info, debug, trace]

/-- The name in lowercase letters. -/
def text : LogLevel → String
  | error => "error"
  | warn => "warn"
  | info => "info"
  | debug => "debug"
  | trace => "trace"

/-- Reads a level by its name in any case of the letters A to Z, or by its number from one on. -/
def read? (token : String) : Option LogLevel :=
  -- A text that is a number is not looked for among the names.
  match Decimal.unsigned? Decimal.maxUnsigned64 (Text.bytes token) with
  | some (number + 1) => all[number]?
  | some 0 => none
  | none => all.find? fun level => level.text.toList == token.toList.map Char.toLower

end LogLevel

/-- The settings of a server. -/
structure Settings where
  /-- The address to listen on. -/
  publicAddress : String := "127.0.0.1:6379"
  /-- The number of workers, or zero to choose it by the machine. -/
  workers : Nat := 0
  /-- The number of databases. -/
  databases : Nat := 16
  /-- How much is logged. -/
  logLevel : LogLevel := .info
  /-- The directory of log files, if logs are written to files. -/
  logDirectory : Option String := none
deriving DecidableEq

/-- Why settings cannot be used. -/
inductive SettingsError where
  /-- The settings file is missing or not well formed. -/
  | unreadable
  /-- A count is no unsigned integer. -/
  | badCount (value : String)
  /-- There would be no database. -/
  | noDatabases
  /-- No level has this name or number. -/
  | badLogLevel (value : String)
deriving DecidableEq

/-- The words for the error. -/
def SettingsError.message : SettingsError → String
  | unreadable => "INI configuration error."
  | badCount value =>
    "Invalid argument error. failed to convert INI value `" ++ value ++ "` to usize"
  | noDatabases => "Invalid argument error. `databases` must be greater than 0"
  | badLogLevel value => "Invalid argument error. invalid log level `" ++ value ++ "`"

namespace Settings

/-- Reads a count. -/
def readCount? (token : String) : Option Nat :=
  Decimal.unsigned? Decimal.maxUnsigned64 (Text.bytes token)

/-- A count among properties, or a default where it is not given. -/
def count (given : Option String) (default : Nat) : Except SettingsError Nat :=
  match given with
  | none => .ok default
  | some value =>
    match readCount? value with
    | some count => .ok count
    | none => .error (.badCount value)

/-- A level among properties, or a default where it is not given. -/
def level (given : Option String) (default : LogLevel) : Except SettingsError LogLevel :=
  match given with
  | none => .ok default
  | some value =>
    match LogLevel.read? value with
    | some level => .ok level
    | none => .error (.badLogLevel value)

/-- The name of the section that holds the settings. -/
def sectionName : String := "general"

/-- The settings in the sections of a settings file. -/
def ofSections (sections : List Section) : Except SettingsError Settings := do
  -- Of several errors the one of the property checked first is told.
  let given := Sections.property? sections sectionName
  let defaults : Settings := {}
  let workers ← count (given "workers") defaults.workers
  let databases ← count (given "databases") defaults.databases
  if databases = 0 then throw .noDatabases
  let logLevel ← level (given "log_level") defaults.logLevel
  return {
    publicAddress := (given "public_address").getD defaults.publicAddress
    workers, databases, logLevel
    logDirectory := (given "logdir").or defaults.logDirectory }

/-- The settings in the text of a settings file. -/
def ofText (text : String) : Except SettingsError Settings :=
  match Sections.read text with
  | .error _ => .error .unreadable
  | .ok sections => ofSections sections

/-- The settings in a settings file, which may begin with a byte order mark. -/
def ofFileText (text : String) : Except SettingsError Settings :=
  match text.toList with
  | [] => ofText text
  -- At any other place the character is one of the text.
  | first :: rest => if first.toNat = 0xFEFF then ofText (String.ofList rest) else ofText text

/-- Splits a text at its last colon. -/
def splitLastColon? (letters : List Char) : Option (List Char × List Char) :=
  let last := letters.reverse
  if ':' ∈ letters then
    some ((last.dropWhile (· ≠ ':')).tail.reverse, (last.takeWhile (· ≠ ':')).reverse)
  else none

/-- The host and port of the public address, where a port that is no port counts as zero. -/
def endpoint (settings : Settings) : Endpoint :=
  match splitLastColon? settings.publicAddress.toList with
  | none => ⟨settings.publicAddress, 0⟩
  | some (host, port) =>
    ⟨String.ofList host,
      (Decimal.unsigned? Decimal.maxUnsigned16 (Text.bytes (String.ofList port))).getD 0⟩

end Settings
end ScoreStore
