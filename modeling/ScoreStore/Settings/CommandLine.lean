import ScoreStore.Settings

/-!
Command lines: reading options and the name of a settings file, and applying them to settings.
-/

namespace ScoreStore

/-- What a command line asks for. -/
structure CommandLine where
  /-- The name of the settings file. -/
  settingsFile : Option String := none
  /-- The address to listen on. -/
  publicAddress : Option String := none
  /-- How much is logged. -/
  logLevel : Option String := none
  /-- The directory of log files. -/
  logDirectory : Option String := none
  /-- The number of workers. -/
  workers : Option Nat := none
  /-- The number of databases. -/
  databases : Option Nat := none
deriving DecidableEq

/-- Why a command line is not followed. -/
inductive CommandLineError where
  /-- No option has this name, or there is more than one settings file. -/
  | unknownArgument
  /-- An option lacks its value. -/
  | missingValue
  /-- A value is not of the kind that its option takes. -/
  | badValue
  /-- An option is given twice. -/
  | repeated
  /-- A value is given to an option that takes none. -/
  | needlessValue
  /-- The help text is asked for. -/
  | helpRequested
deriving DecidableEq

/-- The words for the error. -/
def CommandLineError.message : CommandLineError → String
  | unknownArgument => "error: unexpected argument found"
  | missingValue => "error: a value is required for an option"
  | badValue => "error: invalid value for an option"
  | repeated => "error: an option cannot be used multiple times"
  | needlessValue => "error: unexpected value for an option"
  | helpRequested =>
    "Usage: [--public-address ADDRESS] [--log-level LEVEL] [--logdir DIRECTORY] " ++
      "[--workers COUNT] [--databases COUNT] [CONFIG]"

namespace CommandLine

/-- An option. -/
inductive Switch where
  | publicAddress | logLevel | logDirectory | workers | databases | help
deriving DecidableEq

/-- The option with a long name. -/
def Switch.ofLong? : List Char → Option Switch
  | name =>
    if name = "public-address".toList then some publicAddress
    else if name = "log-level".toList then some logLevel
    else if name = "logdir".toList then some logDirectory
    else if name = "workers".toList then some workers
    else if name = "databases".toList then some databases
    else if name = "help".toList then some help
    else none

/-- The option with a one-letter name. -/
def Switch.ofShort? : Char → Option Switch
  | 'w' => some workers
  | 'd' => some databases
  | 'h' => some help
  | _ => none

/-- Puts a value in a place that must still be free. -/
def fill {α : Type} (place : Option α) (value : Option α) : Except CommandLineError (Option α) :=
  -- A second value is refused before it is looked at.
  match place, value with
  | some _, _ => .error .repeated
  | none, none => .error .badValue
  | none, some value => .ok (some value)

/-- Gives an option its value. -/
def assign (line : CommandLine) (value : String) : Switch → Except CommandLineError CommandLine
  | .publicAddress => do
    return { line with publicAddress := ← fill line.publicAddress (some value) }
  | .logLevel => do return { line with logLevel := ← fill line.logLevel (some value) }
  | .logDirectory => do return { line with logDirectory := ← fill line.logDirectory (some value) }
  | .workers => do return { line with workers := ← fill line.workers (Settings.readCount? value) }
  | .databases => do
    return { line with databases := ← fill line.databases (Settings.readCount? value) }
  | .help => .error .helpRequested

/-- The state of reading a command line. -/
structure Progress where
  /-- What the line asks for so far. -/
  line : CommandLine := {}
  /-- The option given last, with its value once that is given, until both are settled. -/
  pending : Option (Switch × Option String) := none

namespace Progress

/-- Settles the option given last. -/
def settle (progress : Progress) : Except CommandLineError CommandLine :=
  match progress.pending with
  | none => .ok progress.line
  | some (_, none) => .error .missingValue
  | some (switch, some value) => progress.line.assign value switch

/-- Takes the name of the settings file. -/
def takeFile (progress : Progress) (word : String) : Except CommandLineError Progress :=
  -- A second name is an error of its own, whatever is wrong with the option before it.
  if progress.line.settingsFile.isSome then .error .unknownArgument
  else do
    let line ← progress.settle
    return { line := { line with settingsFile := some word } }

/-- Takes an argument that is no option: the value of the option before it, or the settings file. -/
def takePlain (progress : Progress) (word : String) : Except CommandLineError Progress :=
  match progress.pending with
  | some (switch, none) => .ok { progress with pending := some (switch, some word) }
  | _ => progress.takeFile word

/-- Takes an option, with its value if the same argument holds one. -/
def takeSwitch (progress : Progress) (switch : Switch) (value : Option String) :
    Except CommandLineError Progress := do
  -- The option before it is settled first, and a value in the same argument at once.
  let line ← progress.settle
  match value with
  | some value => return { line := ← line.assign value switch }
  | none =>
    if switch = .help then throw .helpRequested
    else return { line, pending := some (switch, none) }

/-- Takes an option with a long name, and a value after an equals sign. -/
def takeLong (progress : Progress) (letters : List Char) : Except CommandLineError Progress :=
  let name := letters.takeWhile (· ≠ '=')
  match Switch.ofLong? name, letters.dropWhile (· ≠ '=') with
  | none, _ => .error .unknownArgument
  | some switch, [] => progress.takeSwitch switch none
  | some .help, _ => .error .needlessValue
  | some switch, _ :: value => progress.takeSwitch switch (some (String.ofList value))

/-- Takes an option with a one-letter name, and a value right after it or after an equals sign. -/
def takeShort (progress : Progress) (letter : Char) (letters : List Char) :
    Except CommandLineError Progress :=
  match Switch.ofShort? letter, letters with
  | none, _ => .error .unknownArgument
  | some .help, _ => progress.takeSwitch .help none
  | some switch, [] => progress.takeSwitch switch none
  | some switch, '=' :: value => progress.takeSwitch switch (some (String.ofList value))
  | some switch, value => progress.takeSwitch switch (some (String.ofList value))

/-- Takes the arguments in turn; after two dashes alone, no further argument is an option. -/
def takeAll (progress : Progress) (optionsAllowed : Bool) :
    List String → Except CommandLineError CommandLine
  | [] => progress.settle
  | word :: rest =>
    match optionsAllowed, word.toList with
    | false, _ => do takeAll (← progress.takeFile word) false rest
    | true, ['-', '-'] => takeAll progress false rest
    | true, '-' :: '-' :: letters => do takeAll (← progress.takeLong letters) true rest
    | true, '-' :: letter :: letters => do takeAll (← progress.takeShort letter letters) true rest
    | true, _ => do takeAll (← progress.takePlain word) true rest

end Progress

/-- What the arguments of a command line ask for. -/
def ofArguments (arguments : List String) : Except CommandLineError CommandLine :=
  Progress.takeAll {} true arguments

/-- The settings with what a command line asks for in their place. -/
def apply (line : CommandLine) (settings : Settings) : Settings where
  -- A level that is none is passed over, and there is always one database.
  publicAddress := line.publicAddress.getD settings.publicAddress
  logLevel := (line.logLevel.bind LogLevel.read?).getD settings.logLevel
  logDirectory := line.logDirectory.or settings.logDirectory
  workers := line.workers.getD settings.workers
  databases := (line.databases.map (max 1)).getD settings.databases

end CommandLine
end ScoreStore
