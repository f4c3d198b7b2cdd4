import FrameServer.Capture.Pattern
import FrameServer.Server.Basic

/-!
# FrameServer.Server.Closing — shutting down while everything still runs

Shutting down goes through stages. Between two of them the acquisition, the drain
and the workers make moves of their own, in any order; a stage that waits for one
of them is left only after it has ended.

1. **Stages**
2. **Moves** of a server that is being shut down.
-/

namespace FrameServer.Server

/-! ## Stages -/

/-- How far shutting down has come. -/
inductive Stage where
  /-- Nobody has asked for it. -/
  | serving
  /-- All parts are asked to end; the service is waited for. -/
  | cancelled
  | serviceEnded
  /-- The acquisition was told to stop and is waited for. -/
  | stopping
  /-- The logger is waited for. -/
  | stopped
  | loggerEnded
  /-- The camera was given up. -/
  | released
deriving DecidableEq, Repr

/-- A server with a pattern camera that may be shutting down. -/
structure Closing where
  server : Server PatternCamera
  stage : Stage

namespace Closing

/-! ## Moves -/

/-- Who makes the next move. -/
inductive Move where
  | acquisition (m : PatternCamera.Move)
  | logger (m : Logger.Move)
  /-- The one who shuts the server down. -/
  | closer
deriving DecidableEq, Repr

/-- Replaces the camera. -/
def withCamera (camera : PatternCamera) (c : Closing) : Closing :=
  { c with server := { c.server with station := { c.server.station with camera } } }

/-- The acquisition moves; a frame that it delivers is taken in. -/
def acquire (now : Nat) (m : PatternCamera.Move) (c : Closing) : Option Closing :=
  (c.server.station.camera.move m).map fun (camera, shot) =>
    let c := c.withCamera camera
    { c with server := { c.server with station := c.server.station.takeIn now shot.toList } }

/-- The logger moves. -/
def log (wall : WallTime) (m : Logger.Move) (c : Closing) : Option Closing :=
  (c.server.logger.move c.server.encoder wall m c.server.station.exchange).map
    fun (logger, exchange) =>
      { c with server := { c.server with
          logger, station := { c.server.station with exchange } } }

/-- Shutting down goes on by one stage, if it does not have to wait. -/
def advance (c : Closing) : Option Closing :=
  match c.stage with
  | .serving => some ⟨c.server.cancel, .cancelled⟩
  | .cancelled => some ⟨{ c.server with service := c.server.service.close }, .serviceEnded⟩
  | .serviceEnded =>
    some { c.withCamera c.server.station.camera.requestStop with stage := .stopping }
  | .stopping =>
    c.server.station.camera.join?.map fun camera => { c.withCamera camera with stage := .stopped }
  | .stopped => if c.server.logger.isDone then some { c with stage := .loggerEnded } else none
  | .loggerEnded =>
    some { c.withCamera c.server.station.camera.shutdown.2 with stage := .released }
  | .released => none

/-- Makes a move if it is enabled. -/
def move (wall : WallTime) (now : Nat) (m : Move) (c : Closing) : Option Closing :=
  match m with
  | .acquisition m => c.acquire now m
  | .logger m => c.log wall m
  | .closer => c.advance

end Closing

end FrameServer.Server
