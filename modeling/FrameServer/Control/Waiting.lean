import FrameServer.Capture.Pattern
import FrameServer.Capture.Scripted
import FrameServer.Control.Station

/-!
# FrameServer.Control.Waiting — waiting for frames

Between two calls a camera that streams goes on by itself. Here it is as fast as
can be: it delivers a triggered frame at once, and a frame in its own time when
somebody waits for one.
-/

namespace FrameServer

/-- A camera that goes on by itself. -/
class Acquiring (κ : Type) where
  /-- Goes on until it waits for a trigger or for its time. -/
  settle : κ → List Shot × κ
  /-- Goes on until it has delivered a frame, if its time has come. -/
  turn : κ → List Shot × κ

/-- Moves after which the acquisition waits, but for its time. -/
def PatternCamera.settle (c : PatternCamera) : List Shot × PatternCamera :=
  match c.acquisition with
  | some a => if a.mode = .software then c.moves turn else c.moves [.check]
  | none => ([], c)

instance : Acquiring PatternCamera := ⟨PatternCamera.settle, PatternCamera.moves PatternCamera.turn⟩

instance : Acquiring ScriptedCamera := ⟨fun c => ([], c), fun c => ([], c)⟩

namespace Station

variable {κ : Type} [Camera κ] [Acquiring κ]

/-- Takes in the frames that the camera delivers. -/
def collect (now : Nat) (acquire : κ → List Shot × κ) (s : Station κ) : Station κ :=
  let (shots, camera) := acquire s.camera
  takeIn now shots { s with camera }

/-- Lets the camera go on until it waits. -/
def settle (now : Nat) (s : Station κ) : Station κ := s.collect now Acquiring.settle

/-- Takes the oldest frame out of the ring, waiting for one if it is empty. -/
def nextFrame (now : Nat) (s : Station κ) : Option Frame × Station κ :=
  let s := if s.exchange.ring.isEmpty then s.collect now Acquiring.turn else s
  let (frame, ring) := s.exchange.ring.get?
  (frame, { s with exchange := { s.exchange with ring } })

/-- Waits for a number of frames; `ask` is done before each of them. -/
def nextFrames (now : Nat) (ask : κ → κ) : Nat → Station κ → List Frame × Station κ
  | 0, s => ([], s)
  | count + 1, s =>
    let (frame, s) := (settle now { s with camera := ask s.camera }).nextFrame now
    let (frames, s) := nextFrames now ask count s
    (frame.toList ++ frames, s)

/-- Waits for a number of frames. -/
def take (now count : Nat) (s : Station κ) : List Frame × Station κ := s.nextFrames now id count

/-- Triggers a number of times and waits for the frame each time. -/
def shoot (now count : Nat) (s : Station κ) : List Frame × Station κ :=
  s.nextFrames now (fun c => (Camera.trigger c).2) count

end Station

end FrameServer
