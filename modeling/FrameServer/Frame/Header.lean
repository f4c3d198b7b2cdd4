import FrameServer.Frame.Word
import FrameServer.Number.Binary64

/-!
# FrameServer.Frame.Header — what travels in front of a frame's pixels

A header has fifteen fields. Encoded it is fifteen words: seven integers, of
which the recording flag is the last and written as 0 or 1, then eight numbers.

1. **The header** and a fresh one for a full frame.
2. **Words**: `words` and `ofWords?`, the only place where the order of the
   fields is fixed.
3. **Bytes**: each word as eight bytes, 120 in all. Any number but 0 reads as a
   set recording flag.
-/

namespace FrameServer

/-- What is known about a frame. -/
structure Header where
  width : UInt64
  height : UInt64
  /-- How many pixel bytes the frame came with. -/
  imageSize : UInt64
  /-- How many bytes follow the header. -/
  payloadSize : UInt64
  /-- When it was taken, in ticks of the capture clock. -/
  timestamp : UInt64
  /-- Its place in the sequence of captured frames. -/
  frameId : UInt64
  /-- Recording was on when it arrived. -/
  recording : Bool
  gain : Binary64
  gainMin : Binary64
  gainMax : Binary64
  exposure : Binary64
  exposureMin : Binary64
  exposureMax : Binary64
  /-- The configured rate in Hz. -/
  rate : Binary64
  /-- The rate at which frames really arrive, in Hz. -/
  measuredRate : Binary64
deriving DecidableEq, Repr

namespace Header

/-! ## The header -/

/-- Every number zero and the flag cleared. -/
def blank : Header :=
  ⟨0, 0, 0, 0, 0, 0, false, ⟨0⟩, ⟨0⟩, ⟨0⟩, ⟨0⟩, ⟨0⟩, ⟨0⟩, ⟨0⟩, ⟨0⟩⟩

instance : Inhabited Header := ⟨blank⟩

/-- The header of a frame with one byte for each of its pixels. -/
def full (width height : UInt32) (frameId timestamp : UInt64) : Header :=
  let size := width.toUInt64 * height.toUInt64
  { blank with
    width := width.toUInt64, height := height.toUInt64
    imageSize := size, payloadSize := size, timestamp, frameId }

/-- The number of pixels, as a word. -/
def pixelCount (h : Header) : UInt64 := h.width * h.height

/-! ## Words -/

/-- The fields in the order in which they travel. -/
def words (h : Header) : List UInt64 :=
  [h.width, h.height, h.imageSize, h.payloadSize, h.timestamp, h.frameId,
    if h.recording then 1 else 0,
    h.gain.bits, h.gainMin.bits, h.gainMax.bits,
    h.exposure.bits, h.exposureMin.bits, h.exposureMax.bits,
    h.rate.bits, h.measuredRate.bits]

/-- The header with the given fields. -/
def ofWords? : List UInt64 → Option Header
  | [width, height, imageSize, payloadSize, timestamp, frameId, recording, gain, gainMin, gainMax,
      exposure, exposureMin, exposureMax, rate, measuredRate] =>
    some ⟨width, height, imageSize, payloadSize, timestamp, frameId, recording != 0,
      ⟨gain⟩, ⟨gainMin⟩, ⟨gainMax⟩, ⟨exposure⟩, ⟨exposureMin⟩, ⟨exposureMax⟩,
      ⟨rate⟩, ⟨measuredRate⟩⟩
  | _ => none

/-! ## Bytes -/

/-- The length of an encoded header. -/
def byteLength : Nat := 15 * 8

def toBytes (h : Header) : Bytes := h.words.flatMap Word.toBytes

/-- The header in front of a byte string, unless that is too short to hold one. -/
def ofBytes? (bytes : Bytes) : Option Header :=
  if bytes.length < byteLength then none else ofWords? (Word.readMany 15 bytes)

end Header

end FrameServer
