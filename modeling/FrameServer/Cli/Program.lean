import FrameServer.Capture.Pattern
import FrameServer.Cli.Options
import FrameServer.Config.Load
import FrameServer.Server.Basic

/-!
# FrameServer.Cli.Program — one run of the server

A run reads its command line, loads and checks its configuration, starts the
server, serves until its time is over, and shuts down. It ends with an exit code:
0 after a run, 1 if the server could not be started, 2 if the command line is
none.
-/

namespace FrameServer.Cli

/-- What a run finds. -/
structure World where
  /-- The variables of the environment. -/
  environment : List (String × String)
  /-- The text of a file. -/
  fileText : String → Option String
  /-- What a path leads to. -/
  lookUp : String → Root
  freeMemory : Option Nat
  takenPorts : List UInt16
  wall : WallTime
  platform : Platform := {}

/-- Why a run ends before the server runs. -/
inductive Failure where
  | load (e : LoadError)
  | invalid (fault : ConfigFault)
  | start (e : StartError)
deriving DecidableEq, Repr

/-- Why a run could not start. -/
def Failure.message : Failure → String
  | load .noSource => "the configuration file cannot be used"
  | load .malformed => "the configuration file cannot be read"
  | load .wrongType => "a setting is of the wrong type"
  | load .wrongShape => "a setting is none of its choices"
  | invalid fault => fault.message
  | start e => e.message

/-- How a run ends. -/
inductive Outcome where
  | usage
  | help
  /-- Prints the version. -/
  | version
  | failed (reason : Failure)
  | finished
deriving DecidableEq, Repr

def Outcome.code : Outcome → Nat
  | usage => 2
  | help => 0
  | version => 0
  | failed _ => 1
  | finished => 0

/-- The name and version of the program. -/
def versionLine : String := "camserver " ++ Session.version

/-- The camera of a configuration. -/
def openCamera (config : CaptureConfig) : Except CaptureError PatternCamera :=
  match config.backend with
  | .synthetic => .ok .new
  | .v4l2 => .error (.backendUnavailable (Named.name config.backend))

/-- The configuration of a run, with the options laid over it. -/
def configure (world : World) (o : Options) : Except Failure Config :=
  match Config.load (o.config.map fun path => (path, world.fileText path)) world.environment with
  | .error e => .error (.load e)
  | .ok config =>
    let config := o.apply config
    match config.fault? with
    | some fault => .error (.invalid fault)
    | none => .ok config

/-- How many frames a free-running camera takes in some seconds. -/
def turnsIn (seconds : Nat) (config : CaptureConfig) : Nat :=
  match config.trigger with
  | .freerun => seconds * nanosecondsPerSecond / max (framePeriod config.rateHz) 1 + 1
  | .software => 0

/-- The camera takes a frame, and the logger deals with it. -/
def turn (wall : WallTime) (now : Nat) (server : Server PatternCamera) : Server PatternCamera :=
  let camera := { server.station.camera with clock := .ofNat (now / 1000) }
  let (shots, camera) := PatternCamera.moves PatternCamera.turn camera
  let station := ({ server.station with camera } : Station PatternCamera).takeIn now shots
  { server with station }.settle (wall + now / 1000000)

/-- The camera takes frames at its rate. -/
def serve (config : CaptureConfig) (wall : WallTime) (seconds : Nat)
    (server : Server PatternCamera) : Server PatternCamera :=
  (List.range (turnsIn seconds config)).foldl
    (fun server k => turn wall (k * framePeriod config.rateHz) server) server

/-- Runs the server for some seconds; gives what is left of the recording root. -/
def serveFor (world : World) (config : Config) (seconds : Nat) : Outcome × Root :=
  let root := world.lookUp config.recording.rootDir
  match openCamera config.capture with
  | .error e => (.failed (.start (.capture e)), root)
  | .ok camera =>
    match Server.start ⟨world.freeMemory, root, world.takenPorts, world.wall, 0⟩ config camera
        world.platform with
    | .failed e _ root _ => (.failed (.start e), root)
    | .started server =>
      let now := seconds * nanosecondsPerSecond
      let server := serve config.capture world.wall seconds server
      let server := server.shutdown (world.wall + seconds * 1000) now
      (.finished, server.station.exchange.recording.root)

/-- The end of a run that was asked to shut down after some seconds at the latest,
and the recording root if the run came to look at it. -/
def run (world : World) (latest : Nat) (words : List String) : Outcome × Option (String × Root) :=
  match parse words with
  | .error .usage => (.usage, none)
  | .error .help => (.help, none)
  | .error .version => (.version, none)
  | .ok o =>
    match configure world o with
    | .error reason => (.failed reason, none)
    | .ok config =>
      let seconds := (o.duration.map (·.toNat)).getD latest
      let (outcome, root) := serveFor world config seconds
      (outcome, some (config.recording.rootDir, root))

end FrameServer.Cli
