import FrameServer.Broadcast.Service
import FrameServer.Config.Basic
import FrameServer.Control.Station
import FrameServer.Recording.Logger
import FrameServer.Ring.Capacity

/-!
# FrameServer.Server.Basic — a whole server

A server is a station, a logger and a service that work on one exchange.

1. **Errors** of setting a server up.
2. **Starting**: each part is set up in turn; a part that fails undoes nothing
   but what runs already.
3. **Shutting down**: the service ends first, then the acquisition, then the
   logger, and the camera is given up last.
-/

namespace FrameServer

/-! ## Errors -/

/-- Which part of a server could not be set up. -/
inductive StartError where
  | capture (e : CaptureError)
  | ring (e : RingError)
  | recording (e : RecordingError)
  | bind (e : BindError)
  | control (e : ControlError)
deriving DecidableEq, Repr

def StartError.message : StartError → String
  | capture e => "camera setup failed: " ++ e.message
  | ring e => "ring buffer setup failed: " ++ e.message
  | recording e => "recorder setup failed: " ++ e.message
  | bind e => e.message
  | control e => e.message

/-! ## Starting -/

/-- What a server finds when it starts. -/
structure Surroundings where
  /-- The bytes of memory that are free, if that is known. -/
  freeMemory : Option Nat
  /-- What the configured recording root leads to. -/
  root : Root
  /-- Ports that others listen on. -/
  takenPorts : List UInt16
  wall : WallTime
  /-- The time on the capture clock. -/
  now : Nat
deriving Repr

/-- What a server is built on. -/
structure Platform where
  /-- The largest allocation that is granted. -/
  allocationLimit : Nat := Ring.allocationLimit
  imageWriter : ImageWriter := ImageWriter.plain

structure Server (κ : Type) where
  station : Station κ
  logger : Logger
  service : Service
  encoder : Encoder

/-- How starting ended; of a server that did not start, the camera, the recording
root and the request to shut down are left. -/
inductive StartResult (κ : Type) where
  | started (server : Server κ)
  | failed (e : StartError) (camera : κ) (root : Root) (cancelled : Bool)

namespace Server

variable {κ : Type} [Camera κ]

/-- The camera gives up after it could not be started. -/
def abandon (e : ControlError) (now : Nat) (s : Station κ) : StartResult κ :=
  let s := s.shutdown now
  .failed (.control e) s.camera s.exchange.recording.root true

/-- Starts imaging on a server of which all else runs. -/
def begin (now : Nat) (server : Server κ) : StartResult κ :=
  match server.station.startImaging with
  | (.ok (), station) => .started { server with station }
  | (.error e, station) => abandon e now station

/-- Opens the ports and assembles the server around a station. -/
def assemble (world : Surroundings) (config : Config) (station : Station κ)
    (platform : Platform := {}) : StartResult κ :=
  match config.server.bind world.takenPorts with
  | .error e => .failed (.bind e) station.camera station.exchange.recording.root false
  | .ok () =>
    begin world.now
      { station
        logger := .new config.recording.workers.toNat config.recording.ticksPerSecond
        service := .new config.server
        encoder := config.recording.imageFormat.encoder platform.imageWriter }

/-- Switches recording on if that is configured, then goes on. -/
def prepare (world : Surroundings) (config : Config) (station : Station κ)
    (platform : Platform := {}) : StartResult κ :=
  if config.recording.enabled then
    match station.setRecording true world.wall with
    | (.error e, s) => .failed (.control e) s.camera s.exchange.recording.root false
    | (.ok (), s) => assemble world config s platform
  else assemble world config station platform

/-- Configures the camera and sets up every part of a server. -/
def start (world : Surroundings) (config : Config) (camera : κ) (platform : Platform := {}) :
    StartResult κ :=
  match Camera.configure config.capture camera with
  | (.error e, camera) => .failed (.capture e) camera world.root false
  | (.ok limits, camera) =>
    match Ring.createWithin world.freeMemory config.buffer.capacity.toNat limits.width
        limits.height config.buffer.memoryFraction platform.allocationLimit with
    | .error e => .failed (.ring e) camera world.root false
    | .ok ring =>
      match Recording.new config.recording.rootDir world.root with
      | .error e => .failed (.recording e) camera world.root false
      | .ok recording => 
        prepare world config (.new camera ⟨ring, recording, false⟩) platform

/-! ## Running -/

/-- Lets the logger make some moves. -/
def runLogger (wall : WallTime) (schedule : List Logger.Move) (server : Server κ) : Server κ :=
  let (logger, exchange) :=
    server.logger.run server.encoder wall schedule server.station.exchange
  { server with logger, station := { server.station with exchange } }

/-- The logger writes everything that is in the ring. -/
def settle (wall : WallTime) (server : Server κ) : Server κ :=
  server.runLogger wall (Logger.promptly server.station.exchange.ring.size)

/-! ## Shutting down -/

/-- Asks all parts to end. -/
def cancel (server : Server κ) : Server κ :=
  { server with station := { server.station with
      exchange := { server.station.exchange with cancelled := true } } }

/-- Ends every part in order. A camera that cannot be stopped ends nothing else. -/
def shutdown (wall : WallTime) (now : Nat) (server : Server κ) : Server κ :=
  let server := server.cancel
  let server := { server with service := server.service.close }
  let (_, station) := server.station.stopImaging now
  let server := { server with station }
  let server := server.runLogger wall (Logger.lastMoves station.exchange.ring.size)
  { server with station := server.station.shutdown now }

end Server

end FrameServer
