import ScoreStore.Server.Link
import ScoreStore.Settings.CommandLine

/-! The program: it takes settings from its arguments and serves one client on standard streams. -/

namespace ScoreStore.Program

/-- The settings of a command line, on top of those in the settings file that it names. -/
def settingsFor (line : CommandLine) : IO (Except SettingsError Settings) := do
  let given ← match line.settingsFile with
    | none => pure (.ok {})
    | some name =>
      try
        let text ← IO.FS.readFile name
        pure (Settings.ofFileText text)
      catch _ => pure (.error .unreadable)
  return given.map line.apply

/-- Serves a client until either side ends the connection. -/
def serve (start : Server) : IO Unit := do
  let input ← IO.getStdin
  let output ← IO.getStdout
  let mut server := start.connect 0
  let mut link : Link := { number := 0 }
  while link.isOpen do
    let chunk ← input.read 1024
    if chunk.isEmpty then break
    let (later, rest, bytes) := server.receive link chunk.toList
    output.write ⟨bytes.toArray⟩
    output.flush
    server := later
    link := rest

/-- Runs the program, and tells by the exit code whether its arguments
and settings were in order. -/
def run (arguments : List String) : IO UInt32 := do
  match CommandLine.ofArguments arguments with
  | .error .helpRequested =>
    IO.println CommandLineError.helpRequested.message
    return 0
  | .error reason =>
    IO.eprintln reason.message
    return 2
  | .ok line =>
    match ← settingsFor line with
    | .error reason =>
      IO.eprintln reason.message
      return 1
    | .ok settings =>
      serve (Server.start settings.databases settings.endpoint)
      return 0

end ScoreStore.Program

/-- The entry point of the program. -/
def main (arguments : List String) : IO UInt32 := ScoreStore.Program.run arguments
