import FrameServer.Frame.Stream

/-!
# FrameServer.Ring.Slot — one place for a frame

A slot is a fixed number of bytes, all zero at first, and the header of the frame
that was last written into it. Writing a short frame leaves the bytes behind it
as they were; writing a long one cuts it at the end of the slot. Bytes that were
never written need not be kept: `stored` holds the front of the slot, and zeros
follow it.
-/

namespace FrameServer

/-- The header and the front bytes of a slot. -/
structure Slot where
  header : Header
  stored : Bytes
deriving DecidableEq, Repr, Inhabited

namespace Slot

/-- A slot that holds no frame yet. -/
def blank : Slot := ⟨.blank, []⟩

/-- Writes a frame into a slot of `length` bytes. The header then tells how many
bytes were stored, and its payload size is held within the slot. -/
def write (length : Nat) (s : Slot) (header : Header) (data : Bytes) : Slot :=
  let kept := data.take length
  { header := { header with
      imageSize := UInt64.ofNat kept.length
      payloadSize := min header.payloadSize (UInt64.ofNat length) }
    stored := kept ++ s.stored.drop kept.length }

/-- The first `n` bytes of a slot. -/
def front (n : Nat) (s : Slot) : Bytes :=
  s.stored.take n ++ List.replicate (n - s.stored.length) 0

/-- Copies the frame out of a slot of `length` bytes. -/
def read (length : Nat) (s : Slot) : Frame :=
  ⟨s.header, s.front (min s.header.payloadSize.toNat length)⟩

end Slot

end FrameServer
