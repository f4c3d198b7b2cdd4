import FrameServer.Frame.Header

/-!
# FrameServer.Capture.Settings — what a camera is set to

The settings of a camera with the ranges of its gain and exposure. They are
stamped into the header of each frame and written down with each recording.
-/

namespace FrameServer

/-- The value of a range nearest to `x`; a NaN stays what it is. -/
def Binary64.clamp (low high x : Binary64) : Binary64 :=
  if x.lt low then low else if high.lt x then high else x

/-- The value of a range nearest to `x`, when there is such a range: its low end
is at most its high end and neither is a NaN. -/
def Binary64.clamp? (low high x : Binary64) : Option Binary64 :=
  if low.le high then some (clamp low high x) else none

structure Settings where
  width : UInt32
  height : UInt32
  offsetX : UInt32
  offsetY : UInt32
  gain : Binary64
  gainMin : Binary64
  gainMax : Binary64
  exposure : Binary64
  exposureMin : Binary64
  exposureMax : Binary64
  /-- The configured rate in Hz. -/
  rate : Binary64
deriving DecidableEq, Repr, Inhabited

namespace Settings

/-- The settings of a camera that was never configured. -/
def blank : Settings := ⟨0, 0, 0, 0, ⟨0⟩, ⟨0⟩, ⟨0⟩, ⟨0⟩, ⟨0⟩, ⟨0⟩, ⟨0⟩⟩

/-- Writes the settings into a header; the other fields stay. -/
def stamp (s : Settings) (h : Header) : Header :=
  { h with
    gain := s.gain, gainMin := s.gainMin, gainMax := s.gainMax
    exposure := s.exposure, exposureMin := s.exposureMin, exposureMax := s.exposureMax
    rate := s.rate }

/-- The gain of the range nearest to `x`. -/
def clampGain? (s : Settings) (x : Binary64) : Option Binary64 :=
  Binary64.clamp? s.gainMin s.gainMax x

/-- The exposure of the range nearest to `x`. -/
def clampExposure? (s : Settings) (x : Binary64) : Option Binary64 :=
  Binary64.clamp? s.exposureMin s.exposureMax x

/-- Sets the gain to the nearest value of its range. -/
def withGain (s : Settings) (x : Binary64) : Settings :=
  { s with gain := .clamp s.gainMin s.gainMax x }

/-- Sets the exposure to the nearest value of its range. -/
def withExposure (s : Settings) (x : Binary64) : Settings :=
  { s with exposure := .clamp s.exposureMin s.exposureMax x }

end Settings

end FrameServer
