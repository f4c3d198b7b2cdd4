import FrameServer.Control.Answer

/-!
# FrameServer.Control.Scripted — a control that writes commands down

A control without a camera: it keeps the text of each call and refuses the calls
that it was told to refuse.
-/

namespace FrameServer

/-- A kind of command. -/
inductive ScriptedControl.Kind where
  | recording
  | gain
  | exposure
  | stop
  | exit
  | snap
deriving DecidableEq, Repr

namespace ScriptedControl

/-- Writes a call down, and refuses it if its kind is to be refused. -/
def note (refusals : List (Kind × ControlError)) (kind : Kind) (text : String)
    (calls : List String) : Except ControlError Unit × List String :=
  let calls := calls ++ [text]
  match refusals.lookup kind with
  | some e => (.error e, calls)
  | none => (.ok (), calls)

/-- The control whose state is the list of calls so far. -/
def control (refusals : List (Kind × ControlError)) : Control (List String) where
  setRecording on := note refusals .recording s!"recording {on}"
  setGain n := note refusals .gain s!"gain {n}"
  setExposure n := note refusals .exposure s!"exposure {n}"
  stopImaging := note refusals .stop "stop"
  exit := note refusals .exit "exit"
  snap := note refusals .snap "snap"

end ScriptedControl

end FrameServer
