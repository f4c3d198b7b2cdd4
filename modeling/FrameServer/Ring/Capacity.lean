import FrameServer.Ring.Basic

/-!
# FrameServer.Ring.Capacity — rings that leave memory free

The wanted number of slots, held within a share of the memory that is free.
-/

namespace FrameServer.Ring

/-- The largest 64-bit number. -/
def wordMax : Nat := UInt64.size - 1

/-- How many slots of `slotBytes` bytes a ring gets that asks for `requested` and
may take `fraction` of the `free` bytes. One is always granted, and all of them
when it is not known how much is free. -/
def capacityWithin (requested slotBytes : Nat) (free : Option Nat) (fraction : Binary64) : Nat :=
  let requested := max requested 1
  match free with
  | none => requested
  | some free =>
    let budget := (Binary64.ofNat free * fraction).truncateWithin wordMax
    max (min requested (budget / max slotBytes 1)) 1

/-- A new ring whose capacity is held within a share of the free memory. -/
def createWithin (free : Option Nat) (requested : Nat) (width height : UInt32)
    (fraction : Binary64) (limit : Nat := allocationLimit) : Except RingError Ring :=
  let slotBytes := width.toNat * height.toNat + Header.byteLength
  create (capacityWithin requested slotBytes free fraction) width height limit

end FrameServer.Ring
