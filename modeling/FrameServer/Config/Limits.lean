import FrameServer.Config.Basic
import FrameServer.Decimal.Notation

/-!
# FrameServer.Config.Limits — configurations that can be served

`Config.fault?` names the first limit that a configuration breaks, in the order
of the constructors below; a NaN keeps no limit.
-/

namespace FrameServer

/-- The slowest rate, one frame in a thousand seconds. -/
def minRate : Binary64 := 0.001

/-- A broken limit. -/
inductive ConfigFault where
  | emptyFrame (width height : UInt32)
  | slowCapture (rate : Binary64)
  | memoryShare (fraction : Binary64)
  | slowPublishing (rate : Binary64)
  | zeroPoll
  | samePorts (frame command telemetry : UInt16)
  | noWorkers
  | zeroTicks
deriving DecidableEq, Repr

namespace ConfigFault

private def number (x : Binary64) : String := Decimal.text Decimal.inMessage x

/-- The wording, without the words that say it is a fault of the configuration. -/
def reason : ConfigFault → String
  | emptyFrame w h => s!"capture width and height must be > 0, got {w}x{h}"
  | slowCapture r => s!"capture rate must be >= {number minRate} Hz, got {number r}"
  | memoryShare f => s!"memory_fraction must be in (0, 1], got {number f}"
  | slowPublishing r => s!"publish rate must be >= {number minRate} Hz, got {number r}"
  | zeroPoll => "poll_interval_ms must be > 0"
  | samePorts f c t => s!"frame, command and telemetry ports must differ, got [{f}, {c}, {t}]"
  | noWorkers => "recording needs at least one worker"
  | zeroTicks => "timestamp_ticks_per_second must be > 0"

def message (fault : ConfigFault) : String := "invalid configuration: " ++ fault.reason

end ConfigFault

/-- Two of the ports are one and the same; a port that is still to be chosen is
written 0 and collides with none. -/
def ServerConfig.portsCollide (s : ServerConfig) : Bool :=
  s.framePort != 0 && (s.framePort == s.commandPort || s.framePort == s.telemetryPort)
    || s.commandPort != 0 && s.commandPort == s.telemetryPort

namespace Config

/-- The first limit that the configuration breaks. -/
def fault? (c : Config) : Option ConfigFault :=
  if c.capture.width == 0 || c.capture.height == 0 then
    some (.emptyFrame c.capture.width c.capture.height)
  else if !minRate.le c.capture.rateHz then
    some (.slowCapture c.capture.rateHz)
  else if !(Binary64.lt 0 c.buffer.memoryFraction && c.buffer.memoryFraction.le 1) then
    some (.memoryShare c.buffer.memoryFraction)
  else if !minRate.le c.server.publishRateHz then
    some (.slowPublishing c.server.publishRateHz)
  else if c.server.pollIntervalMs == 0 then
    some .zeroPoll
  else if c.server.portsCollide then
    some (.samePorts c.server.framePort c.server.commandPort c.server.telemetryPort)
  else if c.recording.workers == 0 then
    some .noWorkers
  else if !Binary64.lt 0 c.recording.ticksPerSecond then
    some .zeroTicks
  else none

/-- Accepts a configuration that keeps every limit. -/
def validate (c : Config) : Except ConfigFault Unit :=
  match c.fault? with
  | some fault => .error fault
  | none => .ok ()

end Config

end FrameServer
