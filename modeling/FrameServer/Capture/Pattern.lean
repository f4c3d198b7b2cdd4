import FrameServer.Capture.Camera

/-!
# FrameServer.Capture.Pattern — the test pattern camera

A camera without a device: it draws a moving gradient, at the configured rate or
once for each trigger.

1. **Pixels** of the pattern.
2. **State**: the camera, and the acquisition that runs beside it while it
   streams. The sequence of frame numbers goes on over stops and starts.
3. **Calls** of the camera's owner.
4. **Moves** of the acquisition. It looks whether it is to go on, takes a view of
   the settings, waits for its time or a trigger, then draws and delivers. Each
   move is enabled in one phase only, so a schedule of calls and moves is a run.
5. **Stopping**: the acquisition is told to stop and moves on until it has ended.
-/

namespace FrameServer

/-! ## Pixels -/

namespace Pattern

/-- The brightness of step `n` of the gradient. -/
def shade (gain : Binary64) (n : Nat) : UInt8 :=
  let scale : Binary64 := 1 + gain / 24
  UInt8.ofNat (((Binary64.ofNat n * scale).smaller 255).truncateWithin 255)

/-- A diagonal gradient of 256 steps, moved by the frame number and the offsets. -/
def pixels (view : Settings) (frameId : UInt64) : Bytes :=
  let shades := Vector.ofFn fun i : Fin 256 => shade view.gain i
  let shift := frameId.toNat + view.offsetX.toNat + view.offsetY.toNat
  (List.range view.height.toNat).flatMap fun y =>
    (List.range view.width.toNat).map fun x =>
      shades.get ⟨(x + y + shift) % 256, Nat.mod_lt _ (by decide)⟩

def gainMax : Binary64 := 24

def exposureMin : Binary64 := 10

def exposureMax : Binary64 := 1000000

/-- The widest and the highest frame. -/
def sensorSide : UInt32 := 4096

end Pattern

/-! ## State -/

/-- Where the acquisition stands. -/
inductive Pattern.Phase where
  /-- About to look whether it is to go on. -/
  | checking
  /-- Waiting to draw a frame with the settings it saw. -/
  | waiting (view : Settings)
  | drawing (view : Settings) (frameId : UInt64)
  | ended
deriving DecidableEq, Repr

/-- An acquisition that was started and not yet waited for. -/
structure Pattern.Acquisition where
  mode : Trigger
  /-- It was told to stop. -/
  stopping : Bool
  /-- A trigger is pending. -/
  triggered : Bool
  phase : Phase
deriving DecidableEq, Repr

structure PatternCamera where
  settings : Settings
  /-- The trigger mode of the next acquisition. -/
  mode : Trigger
  configured : Bool
  /-- How many frames were begun so far. -/
  captured : UInt64
  /-- Microseconds on the capture clock. -/
  clock : UInt64
  acquisition : Option Pattern.Acquisition
deriving DecidableEq, Repr

namespace PatternCamera

open Pattern

/-- A camera that was never configured. -/
def new : PatternCamera := ⟨.blank, .freerun, false, 0, 0, none⟩

/-! ## Calls -/

/-- The settings that a configuration asks for, held within the ranges. -/
def settingsFor (config : CaptureConfig) : Settings :=
  let ranges : Settings :=
    { Settings.blank with
      width := config.width, height := config.height
      offsetX := config.offsetX, offsetY := config.offsetY
      gainMin := 0, gainMax, exposureMin, exposureMax, rate := config.rateHz }
  (ranges.withGain (.ofInt config.gain.toInt)).withExposure (.ofInt config.exposureUs.toInt)

def configure (config : CaptureConfig) (c : PatternCamera) :
    Except CaptureError SensorLimits × PatternCamera :=
  if sensorSide < config.width || sensorSide < config.height then
    (.error (.device
      s!"{config.width}x{config.height} exceeds sensor size {sensorSide}x{sensorSide}"), c)
  else
    (.ok ⟨config.width, config.height, 0, gainMax, exposureMin, exposureMax⟩,
      { c with settings := settingsFor config, mode := config.trigger, configured := true })

def start (c : PatternCamera) : Except CaptureError Unit × PatternCamera :=
  if !c.configured then (.error .notConfigured, c)
  else if c.acquisition.isSome then (.error .alreadyStreaming, c)
  else (.ok (), { c with acquisition := some ⟨c.mode, false, false, .checking⟩ })

def setGain (gain : Int32) (c : PatternCamera) : Except CaptureError Binary64 × PatternCamera :=
  let settings := c.settings.withGain (.ofInt gain.toInt)
  (.ok settings.gain, { c with settings })

def setExposure (exposure : Int32) (c : PatternCamera) :
    Except CaptureError Binary64 × PatternCamera :=
  let settings := c.settings.withExposure (.ofInt exposure.toInt)
  (.ok settings.exposure, { c with settings })

def setOffsets (x y : UInt32) (c : PatternCamera) : Except CaptureError Unit × PatternCamera :=
  (.ok (), { c with settings := { c.settings with offsetX := x, offsetY := y } })

/-- Asks for one frame. A trigger that is still pending already stands for the
next frame, and a free-running camera takes no heed of it. -/
def trigger (c : PatternCamera) : Except CaptureError Unit × PatternCamera :=
  if c.mode ≠ .software then (.ok (), c)
  else match c.acquisition with
    | some a => (.ok (), { c with acquisition := some { a with triggered := true } })
    | none => (.error (.device "acquisition is not running"), c)

/-! ## Moves -/

/-- What the acquisition may do next. -/
inductive Move where
  /-- Looks whether it is to go on, and sees the settings. -/
  | check
  /-- Its time has come, a trigger arrived, or there is nothing left to wait for. -/
  | wake
  /-- Has waited long enough for a trigger to look again. -/
  | giveUpWaiting
  /-- Draws the frame and delivers it. -/
  | deliver
deriving DecidableEq, Repr

/-- The acquisition leaves waiting to draw the next frame. -/
def beginFrame (c : PatternCamera) (a : Acquisition) (view : Settings) : PatternCamera :=
  let frameId := c.captured + 1
  { c with
    captured := frameId
    acquisition := some { a with triggered := false, phase := .drawing view frameId } }

/-- The frame with the settings that the acquisition saw. -/
def shot (view : Settings) (frameId clock : UInt64) : Shot :=
  ⟨view.stamp (.full view.width view.height frameId clock), pixels view frameId⟩

/-- Makes a move if it is enabled, and gives the frame that it delivers. A frame
without width cannot be drawn and ends the acquisition. -/
def move (m : Move) (c : PatternCamera) : Option (PatternCamera × Option Shot) :=
  match c.acquisition with
  | none => none
  | some a =>
    let go (phase : Phase) : PatternCamera := { c with acquisition := some { a with phase } }
    match m, a.phase with
    | .check, .checking => some (go (if a.stopping then .ended else .waiting c.settings), none)
    | .wake, .waiting view =>
      match a.mode with
      | .freerun => some (if a.stopping then go .ended else c.beginFrame a view, none)
      | .software =>
        if a.triggered then some (c.beginFrame a view, none)
        else if a.stopping then some (go .ended, none)
        else none
    | .giveUpWaiting, .waiting _ =>
      if a.mode = .software ∧ ¬ a.triggered then some (go .checking, none) else none
    | .deliver, .drawing view frameId =>
      if view.width = 0 then some (go .ended, none)
      else some (go .checking, some (shot view frameId c.clock))
    | _, _ => none

/-- Makes the enabled ones of some moves in turn, and gives the frames that they
deliver. -/
def moves : List Move → PatternCamera → List Shot × PatternCamera
  | [], c => ([], c)
  | m :: rest, c =>
    match c.move m with
    | none => moves rest c
    | some (c, delivered) =>
      let (later, c) := moves rest c
      (delivered.toList ++ later, c)

/-- Moves in which the acquisition makes one frame from every phase, if its time
has come or a trigger is pending, and then waits for the next one. -/
def turn : List Move := [.check, .wake, .deliver, .check]

/-! ## Stopping -/

/-- Tells the acquisition to stop. -/
def requestStop (c : PatternCamera) : PatternCamera :=
  { c with acquisition := c.acquisition.map fun a => { a with stopping := true } }

/-- The acquisition is over once it has ended. -/
def join? (c : PatternCamera) : Option PatternCamera :=
  match c.acquisition with
  | some a => if a.phase = .ended then some { c with acquisition := none } else none
  | none => some c

/-- Moves that bring a stopping acquisition to its end from every phase: a frame
that is being drawn, and one that was triggered already, is still delivered. -/
def lastMoves : List Move := [.wake, .deliver, .check]

def stop (c : PatternCamera) : Except CaptureError Unit × List Shot × PatternCamera :=
  let (late, c) := moves lastMoves c.requestStop
  (.ok (), late, { c with acquisition := none })

def shutdown (c : PatternCamera) : List Shot × PatternCamera :=
  let (_, late, c) := c.stop
  (late, { c with configured := false })

instance : Camera PatternCamera where
  name _ := "synthetic"
  configure := configure
  start := start
  stop := stop
  isStreaming c := c.acquisition.isSome
  setGain := setGain
  setExposure := setExposure
  setOffsets := setOffsets
  trigger := trigger
  settings := PatternCamera.settings
  shutdown := shutdown

end PatternCamera

end FrameServer
