import FrameServer.Capture.Rate
import FrameServer.Recording.Basic
import FrameServer.Ring.Basic

/-!
# FrameServer.Exchange — what the parts of a running server share

The ring, the recording and the request to shut down. The camera puts frames in,
the logger and the broadcast take frames out, and commands change the recording.
-/

namespace FrameServer

structure Exchange where
  ring : Ring
  recording : Recording
  /-- Shutting down was asked for. -/
  cancelled : Bool

namespace Exchange

/-- The frames in a window of the measured rate. -/
def rateWindow : Nat := 60

/-- A frame arrives from the camera: the recording switch and the measured rate
are written into its header, then it goes into the ring. -/
def push (now : Nat) (shot : Shot) (rate : RateEstimate) (x : Exchange) :
    RateEstimate × Exchange :=
  let rate := rate.tick now
  let header := { shot.header with
    recording := x.recording.enabled, measuredRate := rate.rate }
  (rate, { x with ring := x.ring.put header shot.data })

/-- Frames arrive one after the other. -/
def pushAll (now : Nat) (shots : List Shot) (rate : RateEstimate) (x : Exchange) :
    RateEstimate × Exchange :=
  shots.foldl (fun (rate, x) shot => x.push now shot rate) (rate, x)

end Exchange

end FrameServer
