import FrameServer.Ring.Slot

/-!
# FrameServer.Ring.Basic — the frame ring

A ring has a fixed number of slots, used in turn. Frames are put in at `head` and
taken out at `tail`; when every slot holds a frame that was not taken out yet,
the next frame takes the place of the oldest. Beside the queue the ring shows the
frame that was put in last, whether or not it was taken out already.

1. **State and queries**
2. **Creation**: what can go wrong, and a ring without frames.
3. **Operations**: `put`, `get?`, `peekLatest?`, `reset`, `hardReset`.
4. **Waiting**: an operation that waits is the same operation after the frames
   that arrive meanwhile.
-/

namespace FrameServer

/-! ## State and queries -/

structure Ring where
  /-- The largest frame that fits a slot. -/
  width : UInt32
  height : UInt32
  capacity : Nat
  slots : Vector Slot capacity
  /-- The slot of the next frame. -/
  head : Fin capacity
  /-- The slot of the oldest frame in the queue. -/
  tail : Fin capacity
  /-- Every slot is in the queue; tells a full ring from an empty one. -/
  full : Bool
  /-- A frame was put in since the ring was created or reset. -/
  hasLatest : Bool
  written : Nat
  read : Nat
  dropped : Nat

namespace Ring

/-- The slot after `i`, the first one after the last. -/
def next {n : Nat} (i : Fin n) : Fin n := ⟨(i.val + 1) % n, Nat.mod_lt _ i.pos⟩

/-- The slot before `i`. -/
def previous {n : Nat} (i : Fin n) : Fin n := ⟨(i.val + n - 1) % n, Nat.mod_lt _ i.pos⟩

/-- The bytes of a slot. -/
def slotLength (r : Ring) : Nat := r.width.toNat * r.height.toNat

def isEmpty (r : Ring) : Bool := !r.full && r.head == r.tail

def isFull (r : Ring) : Bool := r.full

/-- How many frames wait in the queue. -/
def size (r : Ring) : Nat :=
  if r.full then r.capacity
  else if r.tail.val ≤ r.head.val then r.head.val - r.tail.val
  else r.capacity + r.head.val - r.tail.val

/-- The frame in slot `i`. -/
def frameAt (r : Ring) (i : Fin r.capacity) : Frame := r.slots[i].read r.slotLength

/-! ## Creation -/

end Ring

/-- Why a ring cannot be created. -/
inductive RingError where
  | zeroSized (width height : UInt32)
  | allocation (slots slotLength : Nat)
deriving DecidableEq, Repr

def RingError.message : RingError → String
  | zeroSized w h => s!"frame dimensions must be non-zero, got {w}x{h}"
  | allocation slots length => s!"failed to allocate {slots} frame slots of {length} bytes"

namespace Ring

/-- The bytes that a slot takes beside its frame: a header and where the frame's
bytes are. -/
def slotOverhead : Nat := Header.byteLength + 16

/-- The largest allocation that is granted where nothing else is known of the machine. -/
def allocationLimit : Nat := 0x1000000000

/-- A ring without frames, of one slot at least. -/
def empty (requested : Nat) (width height : UInt32) : Ring :=
  have : 0 < max requested 1 := by omega
  { width, height
    capacity := max requested 1
    slots := Vector.replicate _ .blank
    head := ⟨0, this⟩
    tail := ⟨0, this⟩
    full := false
    hasLatest := false
    written := 0
    read := 0
    dropped := 0 }

/-- A new ring for frames of up to `width` by `height` bytes. No allocation larger than
`limit` is granted. -/
def create (requested : Nat) (width height : UInt32) (limit : Nat := allocationLimit) :
    Except RingError Ring :=
  let slotLength := width.toNat * height.toNat
  let capacity := max requested 1
  if width == 0 || height == 0 then .error (.zeroSized width height)
  else if limit < capacity * slotOverhead || limit < slotLength then
    .error (.allocation capacity slotLength)
  else .ok (empty requested width height)

/-! ## Operations -/

/-- Puts a frame in, in place of the oldest one if the ring is full. -/
def put (r : Ring) (header : Header) (data : Bytes) : Ring :=
  let head := next r.head
  let tail := if r.full then next r.tail else r.tail
  { r with
    slots := r.slots.set r.head (r.slots[r.head].write r.slotLength header data)
    head, tail
    full := head == tail
    hasLatest := true
    written := r.written + 1
    dropped := if r.full then r.dropped + 1 else r.dropped }

/-- Takes the oldest frame out. -/
def get? (r : Ring) : Option Frame × Ring :=
  if r.isEmpty then (none, r)
  else (some (r.frameAt r.tail), { r with tail := next r.tail, full := false, read := r.read + 1 })

/-- The frame that was put in last. -/
def peekLatest? (r : Ring) : Option Frame :=
  if r.hasLatest then some (r.frameAt (previous r.head)) else none

/-- Forgets every frame; the bytes stay in their slots. -/
def reset (r : Ring) : Ring := { r with tail := r.head, full := false, hasLatest := false }

/-- Forgets every frame and clears every slot. -/
def hardReset (r : Ring) : Ring :=
  { r with
    slots := Vector.replicate _ .blank
    tail := r.head, full := false, hasLatest := false }

/-! ## Waiting -/

/-- Lets frames arrive until the ring is ready, and gives back those that come
later. -/
def await (ready : Ring → Bool) : List Shot → Ring → Ring × List Shot
  | [], r => (r, [])
  | shot :: later, r =>
    if ready r then (r, shot :: later) else await ready later (r.put shot.header shot.data)

/-- Takes the oldest frame out, after waiting for one among `arriving`. -/
def getBlocking (arriving : List Shot) (r : Ring) : Option Frame × Ring × List Shot :=
  let (r, later) := await (!·.isEmpty) arriving r
  let (frame, r) := r.get?
  (frame, r, later)

/-- The frame that was put in last, after waiting for one among `arriving`. -/
def peekBlocking (arriving : List Shot) (r : Ring) : Option Frame × Ring × List Shot :=
  let (r, later) := await (·.hasLatest) arriving r
  (r.peekLatest?, r, later)

end Ring

end FrameServer
