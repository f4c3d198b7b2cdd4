import FrameServer.Frame.Header

/-!
# FrameServer.Frame.Stream — frames on the wire

A frame travels as its header followed by its payload; nothing separates one
frame from the next, since the header tells how many bytes follow it.

1. **Writing**: `toBytes`, and `writeOver` into a buffer that is used again.
2. **Reading**: one frame from the front of a byte string, and all of them.
-/

namespace FrameServer

/-- A frame as a camera delivers it. -/
structure Shot where
  header : Header
  /-- The pixels, however many there are. -/
  data : Bytes
deriving DecidableEq, Repr

/-- A frame taken out of the ring: its payload is as long as its header says. -/
structure Frame where
  header : Header
  payload : Bytes
deriving DecidableEq, Repr

namespace Frame

/-! ## Writing -/

def toBytes (f : Frame) : Bytes := f.header.toBytes ++ f.payload

/-- Writes a frame into a buffer, which is emptied first. -/
def writeOver (buffer : Bytes) (f : Frame) : Bytes := buffer.take 0 ++ f.toBytes

/-! ## Reading -/

/-- The frame at the front of a byte string and what follows it, once all of its
bytes are there. -/
def read? (bytes : Bytes) : Option (Frame × Bytes) :=
  match Header.ofBytes? bytes with
  | none => none
  | some header =>
    let rest := bytes.drop Header.byteLength
    let size := header.payloadSize.toNat
    if rest.length < size then none else some (⟨header, rest.take size⟩, rest.drop size)

/-- Reading a frame takes at least a header off the front. -/
theorem length_of_read? {bytes rest : Bytes} {f : Frame} (h : read? bytes = some (f, rest)) :
    rest.length < bytes.length := by
  unfold read? at h
  split at h
  · contradiction
  · next header found =>
    have : ¬ bytes.length < Header.byteLength := by
      intro short
      simp [Header.ofBytes?, short] at found
    have : Header.byteLength = 120 := rfl
    simp only [Option.ite_none_left_eq_some, Option.some.injEq, Prod.mk.injEq] at h
    obtain ⟨-, -, rfl⟩ := h
    simp only [List.length_drop]
    omega

/-- All complete frames at the front of a byte string, and the bytes after them. -/
def readAll (bytes : Bytes) : List Frame × Bytes :=
  match h : read? bytes with
  | none => ([], bytes)
  | some (f, rest) =>
    have := length_of_read? h
    let (frames, left) := readAll rest
    (f :: frames, left)
termination_by bytes.length

end Frame

end FrameServer
