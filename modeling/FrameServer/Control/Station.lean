import FrameServer.Control.Answer
import FrameServer.Exchange

/-!
# FrameServer.Control.Station — the camera and what it works with

A station is a camera together with the exchange that it delivers into. Commands
act on the station; each of them is carried out before the next one begins.

1. **State**
2. **Imaging**: starting, stopping, and giving the camera up.
3. **Commands**
-/

namespace FrameServer

/-! ## State -/

structure Station (κ : Type) where
  camera : κ
  /-- The measured rate of the frames since imaging was started. -/
  rate : RateEstimate
  exchange : Exchange

namespace Station

variable {κ : Type} [Camera κ]

def new (camera : κ) (exchange : Exchange) : Station κ :=
  ⟨camera, .new Exchange.rateWindow, exchange⟩

/-- Takes in the frames that the camera delivered. -/
def takeIn (now : Nat) (shots : List Shot) (s : Station κ) : Station κ :=
  let (rate, exchange) := s.exchange.pushAll now shots s.rate
  { s with rate, exchange }

def isImaging (s : Station κ) : Bool := Camera.isStreaming s.camera

def settings (s : Station κ) : Settings := Camera.settings s.camera

/-! ## Imaging -/

/-- Starts the acquisition; the rate is measured anew. -/
def startImaging (s : Station κ) : Except ControlError Unit × Station κ :=
  let (result, camera) := Camera.start s.camera
  match result with
  | .ok () => (.ok (), { s with camera, rate := .new Exchange.rateWindow })
  | .error e => (.error (.capture e), { s with camera })

/-- Ends the acquisition. -/
def stopImaging (now : Nat) (s : Station κ) : Except ControlError Unit × Station κ :=
  let (result, late, camera) := Camera.stop s.camera
  (result.mapError .capture, takeIn now late { s with camera })

def setOffsets (x y : UInt32) (s : Station κ) : Except ControlError Unit × Station κ :=
  let (result, camera) := Camera.setOffsets x y s.camera
  (result.mapError .capture, { s with camera })

/-- Gives the camera up. -/
def shutdown (now : Nat) (s : Station κ) : Station κ :=
  let (late, camera) := Camera.shutdown s.camera
  takeIn now late { s with camera }

/-! ## Commands -/

/-- Replaces the recording. -/
def withRecording (recording : Recording) (s : Station κ) : Station κ :=
  { s with exchange := { s.exchange with recording } }

def setRecording (on : Bool) (now : WallTime) (s : Station κ) :
    Except ControlError Unit × Station κ :=
  let (result, recording) := s.exchange.recording.setEnabled on s.settings now
  (result.mapError .recording, s.withRecording recording)

def setGain (gain : Int32) (s : Station κ) : Except ControlError Unit × Station κ :=
  let (result, camera) := Camera.setGain gain s.camera
  ((result.map fun _ => ()).mapError .capture, { s with camera })

def setExposure (exposure : Int32) (s : Station κ) : Except ControlError Unit × Station κ :=
  let (result, camera) := Camera.setExposure exposure s.camera
  ((result.map fun _ => ()).mapError .capture, { s with camera })

/-- Ends the acquisition and asks for shutting down, even if ending it failed. -/
def exit (now : Nat) (s : Station κ) : Except ControlError Unit × Station κ :=
  let (result, s) := s.stopImaging now
  (result, { s with exchange := { s.exchange with cancelled := true } })

/-- Opens a session for one frame and asks the camera for it. If the camera
refuses, the session is discarded. -/
def snap (now : WallTime) (s : Station κ) : Except ControlError Unit × Station κ :=
  let (result, recording) := s.exchange.recording.requestSnap s.settings now
  let s := s.withRecording recording
  match result with
  | .error e => (.error (.recording e), s)
  | .ok () =>
    let (result, camera) := Camera.trigger s.camera
    let s := { s with camera }
    match result with
    | .ok () => (.ok (), s)
    | .error e => (.error (.capture e), s.withRecording s.exchange.recording.cancelSnap)

/-- What commands do at a time of the wall clock and of the capture clock. -/
def control (wall : WallTime) (now : Nat) : Control (Station κ) where
  setRecording on := setRecording on wall
  setGain := setGain
  setExposure := setExposure
  stopImaging := stopImaging now
  exit := exit now
  snap := snap wall

end Station

end FrameServer
