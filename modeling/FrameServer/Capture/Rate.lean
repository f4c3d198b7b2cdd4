import FrameServer.Config.Limits

/-!
# FrameServer.Capture.Rate — rates, periods and the measured rate

Time is counted in nanoseconds. A rate estimate watches frames in windows of a
fixed number: the first frame opens a window, the last one closes it and opens
the next, and the rate is the number of frames over the seconds between them. A
window that took no time leaves the estimate as it was.
-/

namespace FrameServer

/-- Nanoseconds in a second. -/
def nanosecondsPerSecond : Nat := 1000000000

/-- The time between two frames at a rate, in nanoseconds, a half to even; rates
below the slowest one count as the slowest. -/
def framePeriod (rate : Binary64) : Nat :=
  let seconds : Binary64 := 1 / rate.larger minRate
  roundDiv (seconds.magnitude * nanosecondsPerSecond) Binary64.one .toEven

/-- A number of nanoseconds in seconds. -/
def inSeconds (nanoseconds : Nat) : Binary64 :=
  .ofNat (nanoseconds / nanosecondsPerSecond) +
    .ofNat (nanoseconds % nanosecondsPerSecond) / .ofNat nanosecondsPerSecond

/-- The measured rate of arriving frames. -/
structure RateEstimate where
  /-- How many frames make a window. -/
  window : Nat
  /-- Frames since the window was opened. -/
  count : Nat
  opened : Option Nat
  rate : Binary64
deriving DecidableEq, Repr

namespace RateEstimate

/-- No frame has arrived yet; a window has one frame at least. -/
def new (window : Nat) : RateEstimate := ⟨max window 1, 0, none, 0⟩

/-- A frame arrives. -/
def tick (e : RateEstimate) (now : Nat) : RateEstimate :=
  match e.opened with
  | none => { e with opened := some now }
  | some start =>
    if e.count + 1 < e.window then { e with count := e.count + 1 }
    else
      let elapsed := inSeconds (now - start)
      { e with
        count := 0
        opened := some now
        rate := if Binary64.lt 0 elapsed then .ofNat (e.count + 1) / elapsed else e.rate }

end RateEstimate

end FrameServer
