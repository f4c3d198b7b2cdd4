import FrameServer.Number.Binary64

/-!
# FrameServer.Config.Basic — what can be configured

Four sections, each a structure whose default values are the defaults of its
fields, and the names under which the choices of a field are written.
-/

namespace FrameServer

/-- Where frames come from. -/
inductive CameraKind where
  /-- The built-in test pattern. -/
  | synthetic
  /-- A capture device. -/
  | v4l2
deriving DecidableEq, Repr

/-- When a camera takes a frame. -/
inductive Trigger where
  /-- At the configured rate. -/
  | freerun
  /-- Once for each request. -/
  | software
deriving DecidableEq, Repr

/-- The file format of recorded frames. -/
inductive ImageFormat where
  | tiff
  | png
  | jpeg
deriving DecidableEq, Repr

/-- A type with finitely many values, each written as a name. -/
class Named (α : Type) where
  all : List (String × α)

instance : Named CameraKind := ⟨[("synthetic", .synthetic), ("v4l2", .v4l2)]⟩

instance : Named Trigger := ⟨[("freerun", .freerun), ("software", .software)]⟩

instance : Named ImageFormat := ⟨[("tiff", .tiff), ("png", .png), ("jpeg", .jpeg)]⟩

/-- The name of a value. -/
def Named.name {α : Type} [Named α] [DecidableEq α] (a : α) : String :=
  ((Named.all.find? fun (_, b) => b = a).map Prod.fst).getD ""

/-- Settings that a camera is configured with. -/
structure CaptureConfig where
  backend : CameraKind := .synthetic
  device : String := "/dev/video0"
  width : UInt32 := 2048
  height : UInt32 := 2048
  offsetX : UInt32 := 0
  offsetY : UInt32 := 0
  /-- Frames per second; without effect on a triggered camera. -/
  rateHz : Binary64 := 15
  gain : Int32 := 0
  exposureUs : Int32 := 10000
  trigger : Trigger := .freerun
deriving DecidableEq, Repr

/-- How large the ring becomes. -/
structure BufferConfig where
  /-- The wanted number of frames. -/
  capacity : UInt64 := 1000
  /-- The share of free memory that the ring may take. -/
  memoryFraction : Binary64 := 0.1
deriving DecidableEq, Repr

/-- Where and how frames are published and commands taken. -/
structure ServerConfig where
  bindAddress : String := "0.0.0.0"
  framePort : UInt16 := 2000
  commandPort : UInt16 := 2001
  /-- Kept free, not served. -/
  telemetryPort : UInt16 := 2002
  publishRateHz : Binary64 := 6
  pollIntervalMs : UInt64 := 83
  writeTimeoutMs : UInt64 := 2000
deriving DecidableEq, Repr

/-- Where and how frames are recorded. -/
structure RecordingConfig where
  rootDir : String := "."
  /-- Recording is on from the start. -/
  enabled : Bool := false
  workers : UInt64 := 10
  imageFormat : ImageFormat := .tiff
  /-- Ticks of the capture clock in a second. -/
  ticksPerSecond : Binary64 := 1000000
deriving DecidableEq, Repr

structure Config where
  capture : CaptureConfig := {}
  buffer : BufferConfig := {}
  server : ServerConfig := {}
  recording : RecordingConfig := {}
deriving DecidableEq, Repr

end FrameServer
