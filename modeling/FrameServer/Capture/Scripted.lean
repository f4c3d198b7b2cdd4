import FrameServer.Capture.Camera

/-!
# FrameServer.Capture.Scripted — a camera that does as it is told

A stand-in for a device: it writes down the calls it gets and refuses those that
it was told to refuse. It delivers no frames.
-/

namespace FrameServer

/-- The calls that can be refused. -/
inductive ScriptedCamera.Call where
  | configure
  | start
  | stop
  | gain
  | exposure
  | offsets
  | trigger
deriving DecidableEq, Repr

structure ScriptedCamera where
  settings : Settings
  streaming : Bool
  /-- The calls so far, oldest first. -/
  calls : List String
  refusals : List (ScriptedCamera.Call × CaptureError)
deriving Repr

namespace ScriptedCamera

def new (settings : Settings) (refusals : List (Call × CaptureError)) : ScriptedCamera :=
  ⟨settings, false, [], refusals⟩

def record (text : String) (c : ScriptedCamera) : ScriptedCamera :=
  { c with calls := c.calls ++ [text] }

/-- Writes a call down and, unless it is to be refused, carries it out. -/
def answer {α : Type} (call : Call) (text : String)
    (carryOut : ScriptedCamera → α × ScriptedCamera) (c : ScriptedCamera) :
    Except CaptureError α × ScriptedCamera :=
  let c := c.record text
  match c.refusals.lookup call with
  | some e => (.error e, c)
  | none =>
    let (a, c) := carryOut c
    (.ok a, c)

def limits (c : ScriptedCamera) : SensorLimits :=
  ⟨c.settings.width, c.settings.height, c.settings.gainMin, c.settings.gainMax,
    c.settings.exposureMin, c.settings.exposureMax⟩

instance : Camera ScriptedCamera where
  name _ := "scripted"
  configure config := answer .configure s!"configure {config.width}x{config.height}" fun c =>
    (c.limits, c)
  start := answer .start "start" fun c => ((), { c with streaming := true })
  stop c :=
    let (result, c) := answer .stop "stop" (fun c => ((), { c with streaming := false })) c
    (result, [], c)
  isStreaming := streaming
  setGain gain := answer .gain s!"gain {gain}" fun c =>
    let settings := c.settings.withGain (.ofInt gain.toInt)
    (settings.gain, { c with settings })
  setExposure exposure := answer .exposure s!"exposure {exposure}" fun c =>
    let settings := c.settings.withExposure (.ofInt exposure.toInt)
    (settings.exposure, { c with settings })
  setOffsets x y := answer .offsets s!"offsets {x} {y}" fun c =>
    ((), { c with settings := { c.settings with offsetX := x, offsetY := y } })
  trigger := answer .trigger "trigger" fun c => ((), c)
  settings := ScriptedCamera.settings
  shutdown c := ([], { c.record "shutdown" with streaming := false })

end ScriptedCamera

end FrameServer
