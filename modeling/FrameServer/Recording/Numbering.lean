import FrameServer.Frame.Header

/-!
# FrameServer.Recording.Numbering — the numbers of recorded frames

The first frame of a session gets number 1 and each later one the number that it
would have if no frame between them had been lost. Numbering starts over after
frames that were not recorded, with a new session, and with a frame from before
the one that it started with.
-/

namespace FrameServer

structure Numbering where
  /-- The frame number and the timestamp of the frame that got number 1. -/
  baseline : Option (Nat × Nat)
  session : Option Nat
deriving DecidableEq, Repr

namespace Numbering

/-- Nothing was numbered yet. -/
def new : Numbering := ⟨none, none⟩

/-- A frame was not recorded. -/
def boundary (n : Numbering) : Numbering := { n with baseline := none }

/-- The baseline that a frame of a session is numbered from. -/
def baselineFor (n : Numbering) (h : Header) (session : Nat) : Nat × Nat :=
  let fresh := (h.frameId.toNat, h.timestamp.toNat)
  match n.baseline with
  | none => fresh
  | some (first, begun) =>
    if n.session = some session ∧ first ≤ h.frameId.toNat then (first, begun) else fresh

/-- Numbers a frame of a session; gives its number, and the ticks since the frame
with number 1. -/
def assign (n : Numbering) (h : Header) (session : Nat) : (Nat × Nat) × Numbering :=
  let (first, begun) := n.baselineFor h session
  ((h.frameId.toNat - first + 1, h.timestamp.toNat - begun),
    ⟨some (first, begun), some session⟩)

end Numbering

end FrameServer
