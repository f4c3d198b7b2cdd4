import FrameServer.Cli.Program
import Std.Time.DateTime.Timestamp

/-!
# FrameServer.Main — the command line

Gathers what a run needs from the machine, carries the run out in its own time,
writes down the descriptions and the logs of the sessions that it recorded, and
says how it ended.
-/

namespace FrameServer.Cli

/-- The variables of the environment that hold settings. -/
def variableNames : List String :=
  [("capture", CaptureConfig.fields.map (·.name)), ("buffer", BufferConfig.fields.map (·.name)),
    ("server", ServerConfig.fields.map (·.name)),
    ("recording", RecordingConfig.fields.map (·.name))].flatMap fun (table, fields) =>
      fields.map fun field => (Config.variableStem ++ table ++ "__" ++ field).toUpper

/-- The variables of the environment that hold settings, as far as they are set. -/
def settingVariables : IO (List (String × String)) :=
  variableNames.filterMapM fun name => do
    return (← IO.getEnv name).map fun value => (name, value)

/-- The text of a file, if it can be read. -/
def fileText (path : String) : IO (Option String) :=
  try return some (← IO.FS.readFile path) catch _ => return none

/-- What a path leads to. -/
def lookUp (path : String) : IO Root :=
  try
    if ← (← IO.FS.realPath path).isDir then return .folder [] [] else return .file
  catch _ => return .missing

/-- Everything that a run with the given command line finds. The recording root
is looked up only where the configuration says where it is. -/
def gather (words : List String) : IO World := do
  let options := parse words
  let path := options.toOption.bind (·.config)
  let text ← match path with
    | some path => fileText path
    | none => pure none
  let wall ← Std.Time.Timestamp.now
  let world : World :=
    { environment := ← settingVariables
      fileText := fun p => if some p = path then text else none
      lookUp := fun _ => .missing
      freeMemory := none
      takenPorts := []
      wall := wall.toMillisecondsSinceUnixEpoch.val.toNat }
  match options.toOption.map (configure world) with
  | some (.ok config) =>
    let root ← lookUp config.recording.rootDir
    return { world with lookUp := fun _ => root }
  | _ => return world

/-- Writes down the description and the log of a session. -/
def writeSession (root : String) (f : SessionFolder) : IO Unit := do
  let folder := joinPath root f.session.relativePath
  IO.FS.createDirAll folder
  IO.FS.writeFile (joinPath folder "session.toml") f.metadata
  IO.FS.writeFile (joinPath folder "timestamps.txt") (String.join f.timestamps)

/-- Says how a run ended. -/
def report : Outcome → IO Unit
  | .usage => IO.eprintln "usage: camserver [OPTIONS]"
  | .help => IO.println ("usage: camserver [OPTIONS]\n" ++
      "\n".intercalate (entries.map fun e => "  --" ++ e.long))
  | .version => IO.println versionLine
  | .failed reason => IO.eprintln ("Error: " ++ reason.message)
  | .finished => pure ()

end FrameServer.Cli

def main (words : List String) : IO UInt32 := do
  let world ← FrameServer.Cli.gather words
  let (outcome, touched) := FrameServer.Cli.run world 0 words
  match touched with
  | some (path, root) => root.sessions.forM (FrameServer.Cli.writeSession path)
  | none => pure ()
  FrameServer.Cli.report outcome
  return outcome.code.toUInt32
