import FrameServer.Capture.Camera
import FrameServer.Control.Command
import FrameServer.Recording.Archive

/-!
# FrameServer.Control.Answer — commands are carried out and answered

A control has one method for each thing that commands ask for, and a command calls
one of them. `answer` reads one command, has it carried out and words the reply: the
command itself after `ACK`, or the reason of a failure after `ERR`.
-/

namespace FrameServer

/-- Why a command fails. -/
inductive ControlError where
  | capture (e : CaptureError)
  | recording (e : RecordingError)
deriving DecidableEq, Repr

def ControlError.message : ControlError → String
  | capture e => e.message
  | recording e => e.message

/-- What commands are carried out by. Each method acts on a state of type `σ` and may
fail. -/
structure Control (σ : Type) where
  setRecording : Bool → σ → Except ControlError Unit × σ
  setGain : Int32 → σ → Except ControlError Unit × σ
  setExposure : Int32 → σ → Except ControlError Unit × σ
  stopImaging : σ → Except ControlError Unit × σ
  exit : σ → Except ControlError Unit × σ
  snap : σ → Except ControlError Unit × σ

/-- Carries a command out: a call of one method. -/
def Command.apply {σ : Type} (control : Control σ) : Command → σ → Except ControlError Unit × σ
  | enableRecording => control.setRecording true
  | disableRecording => control.setRecording false
  | setGain gain => control.setGain gain
  | setExposure exposure => control.setExposure exposure
  | stopImaging => control.stopImaging
  | exit => control.exit
  | snap => control.snap

inductive Reply where
  /-- The command was carried out; its text is given back. -/
  | ack (text : List Char)
  | err (reason : String)
deriving DecidableEq, Repr

namespace Reply

/-- The line that is sent back. -/
def line : Reply → List Char
  | ack text => "ACK: ".toList ++ text ++ ['\n']
  | err reason => "ERR: ".toList ++ reason.toList ++ ['\n']

end Reply

/-- Carries out the command in a text and words the reply. -/
def answer {σ : Type} (control : Control σ) (raw : List Char) (s : σ) : Reply × σ :=
  let text := Command.stripPadding raw
  match Command.parse text with
  | .error e => (.err e.message, s)
  | .ok command =>
    match command.apply control s with
    | (.ok (), s) => (.ack text, s)
    | (.error e, s) => (.err e.message, s)

end FrameServer
