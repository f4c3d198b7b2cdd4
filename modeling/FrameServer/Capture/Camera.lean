import FrameServer.Capture.Settings
import FrameServer.Config.Basic
import FrameServer.Frame.Stream

/-!
# FrameServer.Capture.Camera — what every camera can do

A camera answers calls that may fail; a call that fails still may have changed
it. Stopping waits until the acquisition has come to its end, and the frames that
it delivers meanwhile are part of the answer.
-/

namespace FrameServer

/-- Why a camera refuses a call. -/
inductive CaptureError where
  | notConfigured
  | alreadyStreaming
  | device (reason : String)
  | unsupported (what : String)
  | backendUnavailable (name : String)
  | io (reason : String)
deriving DecidableEq, Repr

def CaptureError.message : CaptureError → String
  | notConfigured => "camera is not configured"
  | alreadyStreaming => "acquisition already running"
  | device reason => reason
  | unsupported what => what ++ " is not supported by this camera"
  | backendUnavailable name => "capture backend '" ++ name ++ "' is not compiled in"
  | io reason => "camera I/O error: " ++ reason

/-- What a configured camera can deliver at most. -/
structure SensorLimits where
  width : UInt32
  height : UInt32
  gainMin : Binary64
  gainMax : Binary64
  exposureMin : Binary64
  exposureMax : Binary64
deriving DecidableEq, Repr

/-- A camera in state `κ`. -/
class Camera (κ : Type) where
  name : κ → String
  configure : CaptureConfig → κ → Except CaptureError SensorLimits × κ
  start : κ → Except CaptureError Unit × κ
  /-- Ends the acquisition; a camera that does not stream stays as it is. -/
  stop : κ → Except CaptureError Unit × List Shot × κ
  isStreaming : κ → Bool
  /-- Sets the gain in dB; the answer is the gain that was set. -/
  setGain : Int32 → κ → Except CaptureError Binary64 × κ
  /-- Sets the exposure in microseconds; the answer is the exposure that was set. -/
  setExposure : Int32 → κ → Except CaptureError Binary64 × κ
  setOffsets : UInt32 → UInt32 → κ → Except CaptureError Unit × κ
  /-- Asks for one frame. -/
  trigger : κ → Except CaptureError Unit × κ
  settings : κ → Settings
  /-- Ends the acquisition and gives the camera up. -/
  shutdown : κ → List Shot × κ

end FrameServer
