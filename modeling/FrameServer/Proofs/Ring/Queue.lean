import FrameServer.Proofs.Ring.Cursor

/-!
# FrameServer.Proofs.Ring.Queue — a ring is a bounded queue

The users of a ring see a queue of frames with a bound, and beside it the frame
that was put in last. Head, tail and the full flag are how a ring keeps this
queue in its slots.

1. **Kept frames**: what a slot keeps of a shot.
2. **The queue**: its state and what each operation does to it.
3. **Operations** in any order, on rings and on queues. Frames may arrive while
   an operation waits for one.
4. **Simulation**: each operation on a ring is the same operation on the queue
   that the ring represents.
5. **Refinement**: a run of a ring returns what the run of the queue returns.
-/

namespace FrameServer

/-! ## Kept frames -/

namespace Shot

/-- What a place of `length` bytes holds once a shot was put into it over `old`. -/
def storedOver (length : Nat) (old : Bytes) (shot : Shot) : Bytes :=
  shot.data.take length ++ old.drop (min shot.data.length length)

/-- The frame that is then in it. The payload is as long as the header of the shot
says, up to the length of the place. Pixels that did not come with the shot are
those that were there before, and zero where there were none. -/
def keptOver (length : Nat) (old : Bytes) (shot : Shot) : Frame :=
  let size := min shot.header.payloadSize.toNat length
  { header := { shot.header with
      imageSize := UInt64.ofNat (min shot.data.length length)
      payloadSize := UInt64.ofNat size }
    payload := (shot.storedOver length old ++ List.replicate size 0).take size }

/-- A payload that came with the shot does not depend on what was there before. -/
theorem keptOver_payload_of_le {length : Nat} (old : Bytes) {shot : Shot}
    (hpayload : shot.header.payloadSize.toNat ≤ shot.data.length) :
    (shot.keptOver length old).payload =
      shot.data.take (min shot.header.payloadSize.toNat length) := by
  have hsize : min shot.header.payloadSize.toNat length ≤ (shot.data.take length).length := by
    rw [List.length_take]
    omega
  rw [keptOver, storedOver, List.append_assoc, List.take_append_of_le_length hsize,
    List.take_take, Nat.min_assoc, Nat.min_self]

end Shot

theorem Slot.front_eq (n : Nat) (s : Slot) :
    s.front n = (s.stored ++ List.replicate n 0).take n := by
  rw [List.take_append, List.take_replicate, Nat.min_eq_left (Nat.sub_le _ _)]
  rfl

theorem Slot.write_stored (length : Nat) (s : Slot) (shot : Shot) :
    (s.write length shot.header shot.data).stored = shot.storedOver length s.stored := by
  rw [write, Shot.storedOver, List.length_take, Nat.min_comm]

theorem toNat_ofNat_min {length : Nat} (hlength : length < UInt64.size) (n : Nat) :
    (UInt64.ofNat (min n length)).toNat = min n length :=
  UInt64.toNat_ofNat_of_lt' (Nat.lt_of_le_of_lt (Nat.min_le_right _ _) hlength)

/-- The payload size is held within the slot as a word. -/
theorem payloadSize_within {length : Nat} (hlength : length < UInt64.size) (size : UInt64) :
    min size (UInt64.ofNat length) = UInt64.ofNat (min size.toNat length) := by
  have hofNat : (UInt64.ofNat length).toNat = length := UInt64.toNat_ofNat_of_lt' hlength
  apply UInt64.toNat_inj.1
  -- `min` of words chooses one of them, by their order as numbers
  show (if _ ≤ _ then _ else _ : UInt64).toNat = _
  rw [toNat_ofNat_min hlength]
  simp only [UInt64.le_iff_toNat_le]
  split <;> omega

theorem Slot.write_read {length : Nat} (hlength : length < UInt64.size) (s : Slot)
    (shot : Shot) :
    (s.write length shot.header shot.data).read length = shot.keptOver length s.stored := by
  have hmin : min (min shot.header.payloadSize.toNat length) length =
      min shot.header.payloadSize.toNat length := Nat.min_eq_left (Nat.min_le_right _ _)
  simp only [read, Shot.keptOver, front_eq, write_stored]
  simp only [write, payloadSize_within hlength, toNat_ofNat_min hlength, hmin, List.length_take,
    Nat.min_comm length]

/-- The number of bytes in a slot fits a word. -/
theorem Ring.slotLength_lt (r : Ring) : r.slotLength < UInt64.size :=
  Nat.lt_of_lt_of_le (Nat.mul_lt_mul'' r.width.toNat_lt r.height.toNat_lt) (by decide)

theorem Ring.deposit_eq (r : Ring) (shot : Shot) :
    r.deposit shot.header shot.data =
      shot.keptOver r.slotLength (r.leftovers.headD []) := by
  rw [r.leftovers_headD]
  exact Slot.write_read r.slotLength_lt _ shot

/-! ## The queue -/

/-- What the users of a ring see. -/
structure Queue where
  /-- The frames that wait, the oldest first. -/
  frames : List Frame
  latest : Option Frame
  written : Nat
  read : Nat
  dropped : Nat
  /-- Frames that still waited when everything was forgotten. -/
  discarded : Nat
  /-- The bytes left in the places for frames, which are used in turn. -/
  left : List Bytes
deriving DecidableEq, Repr

/-- What the users of a ring can ask for. -/
inductive Ring.Op where
  | put (shot : Shot)
  | get
  /-- Frames arrive while the oldest one is waited for, and after it was taken. -/
  | getBlocking (arriving : List Shot)
  | peekLatest
  | peekBlocking (arriving : List Shot)
  | reset
  | hardReset
deriving DecidableEq, Repr

namespace Queue

variable (bound length : Nat)

def empty : Queue := ⟨[], none, 0, 0, 0, 0, List.replicate bound []⟩

/-- Appends the frame that is kept of a shot; a full queue first loses its oldest
frame. -/
def put (shot : Shot) (q : Queue) : Queue :=
  let old := q.left.headD []
  let f := shot.keptOver length old
  let q' := { q with
    latest := some f
    written := q.written + 1
    left := q.left.tail ++ [shot.storedOver length old] }
  if q.frames.length = bound then
    { q' with frames := q.frames.tail ++ [f], dropped := q.dropped + 1 }
  else { q' with frames := q.frames ++ [f] }

def putAll (shots : List Shot) (q : Queue) : Queue :=
  shots.foldl (fun q shot => q.put bound length shot) q

/-- Takes the oldest frame out. -/
def get (q : Queue) : Option Frame × Queue :=
  match q.frames with
  | [] => (none, q)
  | f :: frames => (some f, { q with frames, read := q.read + 1 })

/-- Forgets every frame. -/
def reset (q : Queue) : Queue :=
  { q with frames := [], latest := none, discarded := q.discarded + q.frames.length }

/-- The shots that an operation waits for: none if it is ready, else the first. -/
def early (ready : Bool) (arriving : List Shot) : List Shot :=
  if ready then [] else arriving.take 1

/-- The shots that arrive after an operation. -/
def late (ready : Bool) (arriving : List Shot) : List Shot :=
  if ready then arriving else arriving.drop 1

def perform (q : Queue) : Ring.Op → Option Frame × Queue
  | .put shot => (none, q.put bound length shot)
  | .get => q.get
  | .getBlocking arriving =>
    let ready := !q.frames.isEmpty
    let (frame, q) := (q.putAll bound length (early ready arriving)).get
    (frame, q.putAll bound length (late ready arriving))
  | .peekLatest => (q.latest, q)
  | .peekBlocking arriving =>
    let ready := q.latest.isSome
    let q := q.putAll bound length (early ready arriving)
    (q.latest, q.putAll bound length (late ready arriving))
  | .reset => (none, q.reset)
  | .hardReset => (none, { q.reset with left := List.replicate bound [] })

/-- Carries operations out one after the other; gives what each returns. -/
def run (q : Queue) : List Ring.Op → List (Option Frame) × Queue
  | [] => ([], q)
  | op :: later =>
    let (answer, q) := q.perform bound length op
    let (answers, q) := run q later
    (answer :: answers, q)

end Queue

namespace Ring

def putAll (shots : List Shot) (r : Ring) : Ring :=
  shots.foldl (fun r shot => r.put shot.header shot.data) r

/-- Carries an operation out; gives the frame that it returns, if any. -/
def perform (r : Ring) : Op → Option Frame × Ring
  | .put shot => (none, r.put shot.header shot.data)
  | .get => r.get?
  | .getBlocking arriving =>
    let (frame, r, later) := r.getBlocking arriving
    (frame, r.putAll later)
  | .peekLatest => (r.peekLatest?, r)
  | .peekBlocking arriving =>
    let (frame, r, later) := r.peekBlocking arriving
    (frame, r.putAll later)
  | .reset => (none, r.reset)
  | .hardReset => (none, r.hardReset)

/-- Carries operations out one after the other; gives what each returns. -/
def run (r : Ring) : List Op → List (Option Frame) × Ring
  | [] => ([], r)
  | op :: later =>
    let (answer, r) := r.perform op
    let (answers, r) := run r later
    (answer :: answers, r)

/-! ## Simulation -/

/-- The ring keeps the queue in its slots. -/
structure Represents (bound length : Nat) (r : Ring) (q : Queue) : Prop where
  capacity : r.capacity = bound
  slotLength : r.slotLength = length
  coherent : r.Coherent
  waiting : r.waiting = q.frames
  latest : r.peekLatest? = q.latest
  written : r.written = q.written
  read : r.read = q.read
  dropped : r.dropped = q.dropped
  left : r.leftovers = q.left
  balance : q.written = q.read + q.dropped + q.frames.length + q.discarded

variable {bound length : Nat} {r : Ring} {q : Queue}

namespace Represents

theorem size (h : r.Represents bound length q) : r.size = q.frames.length := by
  rw [← h.waiting, waiting_length]

theorem isEmpty (h : r.Represents bound length q) : r.isEmpty = q.frames.isEmpty := by
  rw [Bool.eq_iff_iff, isEmpty_iff, h.size, List.isEmpty_iff, List.length_eq_zero_iff]

theorem isFull (h : r.Represents bound length q) :
    r.isFull = true ↔ q.frames.length = bound := by
  rw [isFull_iff, h.size, h.capacity]

theorem hasLatest (h : r.Represents bound length q) : r.hasLatest = q.latest.isSome := by
  rw [← h.latest, peekLatest?]
  cases r.hasLatest <;> rfl

theorem empty (requested : Nat) (width height : UInt32) :
    (Ring.empty requested width height).Represents (max requested 1)
      (width.toNat * height.toNat) (.empty (max requested 1)) := by
  refine ⟨rfl, rfl, ?_, waiting_of_size ?_, rfl, rfl, rfl, rfl, ?_, rfl⟩
  · intro hfull
    cases hfull
  · simp [Ring.size, Ring.empty]
  · exact span_replicate _ Slot.stored .blank _

theorem put (h : r.Represents bound length q) (shot : Shot) :
    (r.put shot.header shot.data).Represents bound length (q.put bound length shot) := by
  have hbalance := h.balance
  have hcoherent := r.put_coherent shot.header shot.data
  have hlatest := r.put_peekLatest? shot.header shot.data
  -- the slot at `head` is the place that the queue uses next
  have hleft := r.put_leftovers shot.header shot.data
  rw [filled, Slot.write_stored, ← r.leftovers_headD, h.left, h.slotLength] at hleft
  have hkept := r.deposit_eq shot
  rw [h.left, h.slotLength] at hkept
  rw [hkept] at hlatest
  cases hfull : r.full with
  | true =>
    -- the oldest frame goes, and it is counted as dropped
    have hbound : q.frames.length = bound := h.isFull.1 hfull
    have hpos : 0 < q.frames.length := by
      rw [hbound, ← h.capacity]
      exact r.head.pos
    have hwaiting := r.put_waiting_of_full shot.header shot.data h.coherent hfull
    rw [h.waiting, hkept] at hwaiting
    rw [Queue.put, if_pos hbound]
    refine ⟨h.capacity, h.slotLength, hcoherent, hwaiting, hlatest, ?_, h.read, ?_, hleft, ?_⟩
    · simp [Ring.put, h.written]
    · simp [Ring.put, hfull, h.dropped]
    · simp only [List.length_append, List.length_tail, List.length_singleton]
      omega
  | false =>
    -- nothing goes
    have hbound : q.frames.length ≠ bound := fun hlen => by
      have hyes : r.full = true := h.isFull.2 hlen
      rw [hfull] at hyes
      cases hyes
    have hwaiting := r.put_waiting_of_room shot.header shot.data h.coherent hfull
    rw [h.waiting, hkept] at hwaiting
    rw [Queue.put, if_neg hbound]
    refine ⟨h.capacity, h.slotLength, hcoherent, hwaiting, hlatest, ?_, h.read, ?_, hleft, ?_⟩
    · simp [Ring.put, h.written]
    · simp [Ring.put, hfull, h.dropped]
    · simp only [List.length_append, List.length_singleton]
      omega

theorem putAll (h : r.Represents bound length q) (shots : List Shot) :
    (r.putAll shots).Represents bound length (q.putAll bound length shots) := by
  induction shots generalizing r q with
  | nil => exact h
  | cons shot shots ih => exact ih (h.put shot)

theorem get (h : r.Represents bound length q) :
    r.get?.1 = q.get.1 ∧ r.get?.2.Represents bound length q.get.2 := by
  have hempty := h.isEmpty
  cases hframes : q.frames with
  | nil =>
    rw [hframes] at hempty
    rw [r.get?_of_isEmpty hempty, Queue.get, hframes]
    exact ⟨rfl, h⟩
  | cons f frames =>
    rw [hframes] at hempty
    -- the frame at the tail is the first of the queue, and the rest is the rest
    have hwaiting := r.waiting_of_some h.coherent hempty
    rw [h.waiting, hframes, List.cons.injEq] at hwaiting
    have hbalance := h.balance
    rw [hframes, List.length_cons] at hbalance
    rw [r.get?_of_some hempty, Queue.get, hframes]
    refine ⟨congrArg some hwaiting.1.symm, h.capacity, h.slotLength, r.rest_coherent,
      hwaiting.2.symm, h.latest, h.written, ?_, h.dropped, h.left, ?_⟩
    · simp [rest, h.read]
    · simp only
      omega

/-- Forgetting every frame counts those that waited. -/
theorem reset (h : r.Represents bound length q) :
    r.reset.Represents bound length q.reset := by
  have hbalance := h.balance
  refine ⟨h.capacity, h.slotLength, ?_, r.reset_waiting, rfl, h.written, h.read, h.dropped,
    h.left, ?_⟩
  · intro hfull
    cases hfull
  · simp only [Queue.reset, List.length_nil]
    omega

theorem hardReset (h : r.Represents bound length q) :
    r.hardReset.Represents bound length { q.reset with left := List.replicate bound [] } := by
  have hreset := h.reset
  refine ⟨h.capacity, h.slotLength, ?_, r.hardReset_waiting, rfl, h.written, h.read, h.dropped,
    ?_, hreset.balance⟩
  · intro hfull
    cases hfull
  · rw [r.hardReset_leftovers, h.capacity]

end Represents

/-! ## Waiting for frames -/

/-- An operation that is ready once a frame was put in waits for one at most. -/
theorem await_eq (ready : Ring → Bool)
    (hready : ∀ (r : Ring) (shot : Shot), ready (r.put shot.header shot.data) = true)
    (arriving : List Shot) (r : Ring) :
    await ready arriving r =
      (r.putAll (Queue.early (ready r) arriving), Queue.late (ready r) arriving) := by
  cases arriving with
  | nil => cases ready r <;> rfl
  | cons shot later =>
    cases hr : ready r with
    | true => simp [await, hr, Queue.early, Queue.late, putAll]
    | false =>
      -- the first frame that arrives makes it ready
      have hput := hready r shot
      cases later <;> simp [await, hr, hput, Queue.early, Queue.late, putAll]

theorem put_not_isEmpty (r : Ring) (shot : Shot) :
    (!(r.put shot.header shot.data).isEmpty) = true := by
  -- the cursors meet exactly if the ring is full then
  have hmeet : ∀ b : Bool, (!(!b && b)) = true := by decide
  exact hmeet (next r.head == if r.full then next r.tail else r.tail)

/-! ## Refinement -/

/-- Each operation on a ring is the same operation on the queue. -/
theorem Represents.perform (h : r.Represents bound length q) (op : Op) :
    (r.perform op).1 = (q.perform bound length op).1 ∧
      (r.perform op).2.Represents bound length (q.perform bound length op).2 := by
  cases op with
  | put shot => exact ⟨rfl, h.put shot⟩
  | get => exact h.get
  | getBlocking arriving =>
    have hawait := await_eq (!·.isEmpty) put_not_isEmpty arriving r
    simp only [h.isEmpty] at hawait
    obtain ⟨hanswer, hget⟩ := (h.putAll (Queue.early (!q.frames.isEmpty) arriving)).get
    simp only [Ring.perform, Ring.getBlocking, hawait]
    exact ⟨hanswer, hget.putAll _⟩
  | peekLatest => exact ⟨h.latest, h⟩
  | peekBlocking arriving =>
    have hawait := await_eq (·.hasLatest) (fun _ _ => rfl) arriving r
    simp only [h.hasLatest] at hawait
    have hearly := h.putAll (Queue.early q.latest.isSome arriving)
    simp only [Ring.perform, Ring.peekBlocking, hawait]
    exact ⟨hearly.latest, hearly.putAll _⟩
  | reset => exact ⟨rfl, h.reset⟩
  | hardReset => exact ⟨rfl, h.hardReset⟩

theorem Represents.run (h : r.Represents bound length q) (ops : List Op) :
    (r.run ops).1 = (q.run bound length ops).1 ∧
      (r.run ops).2.Represents bound length (q.run bound length ops).2 := by
  induction ops generalizing r q with
  | nil => exact ⟨rfl, h⟩
  | cons op ops ih =>
    obtain ⟨hanswer, hrep⟩ := h.perform op
    obtain ⟨hanswers, hrep'⟩ := ih hrep
    refine ⟨?_, hrep'⟩
    simp only [Ring.run, Queue.run, hanswer, hanswers]

theorem create_eq_empty {requested limit : Nat} {width height : UInt32} {r : Ring}
    (hcreate : create requested width height limit = .ok r) :
    r = .empty requested width height := by
  simp only [create] at hcreate
  split at hcreate
  · cases hcreate
  · split at hcreate
    · cases hcreate
    · exact (Except.ok.inj hcreate).symm

/-- Every run of a ring returns the frames that a bounded queue returns, and leaves
a ring that tells the size and the counters of that queue. -/
theorem run_refines_queue (requested : Nat) (width height : UInt32) (ops : List Op) :
    let bound := max requested 1
    let length := width.toNat * height.toNat
    let (answers, r) := (Ring.empty requested width height).run ops
    let (expected, q) := (Queue.empty bound).run bound length ops
    (∀ limit r₀, create requested width height limit = .ok r₀ →
        r₀ = .empty requested width height) ∧
      answers = expected ∧
      q.frames.length ≤ bound ∧
      r.size = q.frames.length ∧
      (r.isEmpty = true ↔ r.size = 0) ∧
      (r.isFull = true ↔ r.size = bound) ∧
      r.written = q.written ∧ r.read = q.read ∧ r.dropped = q.dropped ∧
      r.written = r.read + r.dropped + r.size + q.discarded := by
  obtain ⟨hanswers, hrep⟩ := (Represents.empty requested width height).run ops
  refine ⟨fun _ _ => create_eq_empty, hanswers, ?_, hrep.size, isEmpty_iff _, ?_, hrep.written,
    hrep.read, hrep.dropped, ?_⟩
  · rw [← hrep.size]
    exact Nat.le_trans (size_le _) (Nat.le_of_eq hrep.capacity)
  · rw [hrep.isFull, hrep.size]
  · rw [hrep.written, hrep.read, hrep.dropped, hrep.size]
    exact hrep.balance

end Ring

end FrameServer
