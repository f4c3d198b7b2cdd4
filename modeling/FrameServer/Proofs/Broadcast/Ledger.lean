import FrameServer.Broadcast.Service
import FrameServer.Proofs.Broadcast.Wire
import FrameServer.Proofs.Frame.Stream

/-!
# FrameServer.Proofs.Broadcast.Ledger — what every connection has received

A ledger stands beside a service and records the frames that were published, and what
the socket of every connection has taken so far, also of those that are gone. What a
connection has received is some of the frames that were published since it was made,
each of them whole and in order, and then at most the front of one more.

1. **Seats** after one of them changed.
2. **Numbers**, which connections keep.
3. **Received bytes** as a row of frames.
4. **The ledger** and what is recorded.
5. **The invariant**: the peers in their seats are as the ledger says.
6. **What keeps it**: publishing, connections that come and go, and writing.
7. **Events** of the service.
-/

namespace FrameServer

/-! ## Seats -/

namespace Seats

theorem get_remove_self (seats : Seats) (seat : Fin maxPeers) :
    (seats.remove seat).get seat = none :=
  Vector.getElem_set_self _

theorem get_remove_of_ne {seat i : Fin maxPeers} (hi : seat ≠ i) (seats : Seats) :
    (seats.remove seat).get i = seats.get i :=
  Vector.getElem_set_ne _ _ fun heq => hi (Fin.ext heq)

theorem get_put_self (seats : Seats) (seat : Fin maxPeers) (p : Peer) :
    (seats.put seat p).get seat = some p :=
  Vector.getElem_set_self _

theorem get_put_of_ne {seat i : Fin maxPeers} (hi : seat ≠ i) (seats : Seats) (p : Peer) :
    (seats.put seat p).get i = seats.get i :=
  Vector.getElem_set_ne _ _ fun heq => hi (Fin.ext heq)

theorem get_map (f : Option Peer → Option Peer) (seats : Seats) (i : Fin maxPeers) :
    Vector.get (seats.map f) i = f (seats.get i) :=
  Vector.getElem_map f i.isLt

theorem of_get_remove {seats : Seats} {seat i : Fin maxPeers} {p : Peer}
    (hp : (seats.remove seat).get i = some p) : i ≠ seat ∧ seats.get i = some p := by
  by_cases hi : seat = i
  · subst hi
    rw [get_remove_self] at hp
    cases hp
  · rw [get_remove_of_ne hi] at hp
    exact ⟨fun heq => hi heq.symm, hp⟩

theorem of_get_put {seats : Seats} {seat i : Fin maxPeers} {p q : Peer}
    (hp : (seats.put seat q).get i = some p) :
    i = seat ∧ p = q ∨ i ≠ seat ∧ seats.get i = some p := by
  by_cases hi : seat = i
  · subst hi
    rw [get_put_self] at hp
    exact .inl ⟨rfl, (Option.some.inj hp).symm⟩
  · rw [get_put_of_ne hi] at hp
    exact .inr ⟨fun heq => hi heq.symm, hp⟩

end Seats

/-! ## Numbers -/

/-- A connection keeps its number when a wire is scheduled for it. -/
theorem Peer.id_arm (now : Nat) (wire : Bytes) (p : Peer) : (p.arm now wire).id = p.id := by
  unfold Peer.arm
  split
  · rfl
  · split
    · rfl
    · rfl

/-- A connection keeps its number when it is written to. -/
theorem Peer.id_flush (writes : List (Nat × Peer.WriteOutcome)) (p : Peer) :
    (p.flush writes).peer.id = p.id := by
  unfold Peer.flush
  split
  · rfl
  · dsimp only
    split
    · rfl
    · rfl

/-! ## Received bytes -/

/-- The bytes are some of the frames, in order, and a rest that is no whole frame. -/
def Received (frames : List Frame) (bytes : Bytes) : Prop :=
  ∃ (whole : List Frame) (rest : Bytes), whole.Sublist frames ∧ Frame.read? rest = none ∧
    bytes = whole.flatMap Frame.toBytes ++ rest

namespace Received

variable {frames : List Frame} {bytes : Bytes}

theorem nothing (frames : List Frame) : Received frames [] :=
  ⟨[], [], List.nil_sublist frames, rfl, rfl⟩

/-- More frames to choose from change nothing. -/
theorem more (h : Received frames bytes) (later : List Frame) :
    Received (frames ++ later) bytes := by
  obtain ⟨whole, rest, hwhole, hrest, rfl⟩ := h
  exact ⟨whole, rest, hwhole.trans (List.sublist_append_left frames later), hrest, rfl⟩

/-- The frames that are read from the bytes are some of the frames, in order. -/
theorem readAll_sublist (h : Received frames bytes) (hsized : ∀ f ∈ frames, f.WellSized) :
    (Frame.readAll bytes).1.Sublist frames := by
  obtain ⟨whole, rest, hwhole, hrest, rfl⟩ := h
  have hread := Frame.readAll_flatMap_append (fun f hf => hsized f (hwhole.subset hf)) hrest
  rw [hread]
  exact hwhole

end Received

/-- What a connection has taken of the wires of some frames is some of the frames, and
then what it has of the one that is on its way. -/
theorem Peer.Link.Untorn.frames {l : Peer.Link} {complete : List Bytes}
    (h : l.Untorn complete) {frames : List Frame} (hsized : ∀ f ∈ frames, f.WellSized)
    (harmed : l.armed = frames.map Frame.toBytes) :
    ∃ whole : List Frame, whole.Sublist frames ∧ Frame.read? l.peer.begun = none ∧
      l.accepted = whole.flatMap Frame.toBytes ++ l.peer.begun := by
  have horder := h.order
  rw [harmed] at horder
  have hcomplete := (List.sublist_append_left complete l.peer.pending).trans horder
  obtain ⟨whole, hwhole, rfl⟩ := List.sublist_map_iff.mp hcomplete
  refine ⟨whole, hwhole, ?_, ?_⟩
  · cases hout : l.peer.outgoing with
    | none =>
      rw [Peer.begun, hout]
      rfl
    | some out =>
      have hbegun : l.peer.begun = out.wire.take out.sent := by rw [Peer.begun, hout]
      rw [hbegun]
      have hpending : out.wire ∈ l.peer.pending := by
        rw [Peer.pending, hout]
        exact List.mem_cons_self
      have hmem := horder.subset (List.mem_append_right _ hpending)
      obtain ⟨f, hf, hwire⟩ := List.mem_map.mp hmem
      rcases h.sound.partly out hout with hzero | hlt
      · rw [hzero]
        rfl
      · rw [← hwire] at hlt ⊢
        exact Frame.read?_take (hsized f hf) hlt
  · rw [h.accepted, ← List.flatMap_def]

theorem Peer.Link.Untorn.received {l : Peer.Link} {complete : List Bytes}
    (h : l.Untorn complete) {frames : List Frame} (hsized : ∀ f ∈ frames, f.WellSized)
    (harmed : l.armed = frames.map Frame.toBytes) : Received frames l.accepted := by
  obtain ⟨whole, hwhole, hrest, haccepted⟩ := h.frames hsized harmed
  exact ⟨whole, l.peer.begun, hwhole, hrest, haccepted⟩

/-! ## The ledger -/

structure Ledger where
  /-- The frames that were published, in order. -/
  published : List Frame
  /-- How many frames had been published when a connection was made; all of them so
  far for one that was not made yet. -/
  joined : Nat → Nat
  /-- The bytes that the socket of a connection has taken. -/
  received : Nat → Bytes

namespace Ledger

/-- Nothing happened yet. -/
def empty : Ledger := ⟨[], fun _ => 0, fun _ => []⟩

/-- A frame was published to the connections with numbers below `nextId`. -/
def publish (nextId : Nat) (f : Frame) (l : Ledger) : Ledger :=
  { l with
    published := l.published ++ [f]
    joined := fun id => if id < nextId then l.joined id else l.published.length + 1 }

/-- The socket of a connection took bytes. -/
def take (id : Nat) (bytes : Bytes) (l : Ledger) : Ledger :=
  { l with received := fun i => if i = id then l.received i ++ bytes else l.received i }

theorem take_nil (id : Nat) (l : Ledger) : l.take id [] = l := by
  simp [take]

/-- What goes out in an event is recorded for the connection that takes it. -/
def record (event : Service.Event) (taken : Bytes) (l : Ledger) : Ledger :=
  match event with
  | .frame _ id _ _ _ => l.take id taken
  | _ => l

/-- The frames that were published since a connection was made. -/
def since (l : Ledger) (id : Nat) : List Frame := l.published.drop (l.joined id)

/-- The whole frames that a connection has received. -/
def frames (l : Ledger) (id : Nat) : List Frame := (Frame.readAll (l.received id)).1

/-- A peer and what the ledger says of its wires. -/
def link (l : Ledger) (p : Peer) (finished : Nat) : Peer.Link :=
  ⟨p, (l.since p.id).map Frame.toBytes, l.received p.id, finished⟩

/-! ## The invariant -/

/-- The ledger is that of the service. -/
structure Tracks (l : Ledger) (s : Service) : Prop where
  sized : ∀ f ∈ l.published, f.WellSized
  last : s.lastPublished = l.published.getLast?.map (·.header.frameId)
  received : ∀ id, Received (l.since id) (l.received id)
  joined_le : ∀ id, l.joined id ≤ l.published.length
  ahead : ∀ id, s.nextId ≤ id → l.joined id = l.published.length ∧ l.received id = []
  seated_lt : ∀ (i : Fin maxPeers) p, s.frameSeats.get i = some p → p.id < s.nextId
  distinct : ∀ (i j : Fin maxPeers) p q, s.frameSeats.get i = some p → s.frameSeats.get j = some q →
    p.id = q.id → i = j
  untorn : ∀ (i : Fin maxPeers) p, s.frameSeats.get i = some p →
    ∃ complete : List Bytes, (l.link p complete.length).Untorn complete

namespace Tracks

variable {l : Ledger} {s s' : Service}

theorem new (config : ServerConfig) : empty.Tracks (.new config) := by
  have hnobody : ∀ (i : Fin maxPeers) p, (Service.new config).frameSeats.get i ≠ some p := by
    intro i p hp
    have hnone : (Service.new config).frameSeats.get i = none := Vector.getElem_replicate i.isLt
    rw [hnone] at hp
    cases hp
  refine ⟨?_, rfl, ?_, fun _ => Nat.le_refl _, fun _ _ => ⟨rfl, rfl⟩, ?_, ?_, ?_⟩
  · rintro f ⟨⟩
  · intro id
    exact Received.nothing _
  · intro i p hp
    exact absurd hp (hnobody i p)
  · intro i j p q hp
    exact absurd hp (hnobody i p)
  · intro i p hp
    exact absurd hp (hnobody i p)

/-! ## What keeps it -/

theorem sized_since (h : l.Tracks s) (id : Nat) : ∀ f ∈ l.since id, f.WellSized :=
  fun f hf => h.sized f (List.mem_of_mem_drop hf)

/-- A connection that is there has received whole frames and what was sent to it of the
one that is on its way. A flush of it gives the bytes that its socket says it took. -/
theorem received_seated (h : l.Tracks s) {seat : Fin maxPeers} {p : Peer}
    (hp : s.frameSeats.get seat = some p) :
    l.received p.id = (l.frames p.id).flatMap Frame.toBytes ++ p.begun ∧
      ∀ writes, (p.flush writes).taken = p.swallows writes := by
  obtain ⟨complete, huntorn⟩ := h.untorn seat p hp
  obtain ⟨whole, hwhole, hread, haccepted⟩ := huntorn.frames (h.sized_since p.id) rfl
  have hrest : Frame.read? p.begun = none := hread
  have hreceived : l.received p.id = whole.flatMap Frame.toBytes ++ p.begun := haccepted
  have hsized : ∀ f ∈ whole, f.WellSized := fun f hf => h.sized_since p.id f (hwhole.subset hf)
  have hframes : l.frames p.id = whole := by
    rw [frames, hreceived, Frame.readAll_flatMap_append hsized hrest]
  rw [hframes]
  exact ⟨hreceived, huntorn.sound.taken_flush⟩

/-- Connections that leave, or none. -/
theorem thin (h : l.Tracks s)
    (hseats : ∀ (i : Fin maxPeers) p, s'.frameSeats.get i = some p → s.frameSeats.get i = some p)
    (hnext : s'.nextId = s.nextId) (hlast : s'.lastPublished = s.lastPublished) :
    l.Tracks s' := by
  refine ⟨h.sized, hlast.trans h.last, h.received, h.joined_le, ?_, ?_, ?_, ?_⟩
  · rw [hnext]
    exact h.ahead
  · intro i p hp
    rw [hnext]
    exact h.seated_lt i p (hseats i p hp)
  · intro i j p q hp hq
    exact h.distinct i j p q (hseats i p hp) (hseats j q hq)
  · intro i p hp
    exact h.untorn i p (hseats i p hp)

/-- A connection of the other role takes a number. -/
theorem skipId (h : l.Tracks s) (hseats : s'.frameSeats = s.frameSeats)
    (hnext : s'.nextId = s.nextId + 1) (hlast : s'.lastPublished = s.lastPublished) :
    l.Tracks s' := by
  refine ⟨h.sized, hlast.trans h.last, h.received, h.joined_le, ?_, ?_, ?_, ?_⟩
  · rw [hnext]
    intro id hid
    exact h.ahead id (Nat.le_of_succ_le hid)
  · rw [hnext, hseats]
    intro i p hp
    exact Nat.lt_succ_of_lt (h.seated_lt i p hp)
  · rw [hseats]
    exact h.distinct
  · rw [hseats]
    exact h.untorn

/-- A connection is seated: nothing was published since it was made. -/
theorem join (h : l.Tracks s) {seat : Fin maxPeers} {now : Nat}
    (hseats : s'.frameSeats = s.frameSeats.put seat (.new s.nextId now))
    (hnext : s'.nextId = s.nextId + 1) (hlast : s'.lastPublished = s.lastPublished) :
    l.Tracks s' := by
  obtain ⟨hjoined, hnothing⟩ := h.ahead s.nextId (Nat.le_refl _)
  -- a seat has the new connection, or the one that it had before
  have hcases : ∀ (i : Fin maxPeers) p, s'.frameSeats.get i = some p →
      i = seat ∧ p = .new s.nextId now ∨ s.frameSeats.get i = some p := by
    intro i p hp
    rw [hseats] at hp
    exact (Seats.of_get_put hp).imp_right And.right
  refine ⟨h.sized, hlast.trans h.last, h.received, h.joined_le, ?_, ?_, ?_, ?_⟩
  · rw [hnext]
    intro id hid
    exact h.ahead id (Nat.le_of_succ_le hid)
  · rw [hnext]
    intro i p hp
    rcases hcases i p hp with ⟨-, rfl⟩ | hold
    · exact Nat.lt_succ_self _
    · exact Nat.lt_succ_of_lt (h.seated_lt i p hold)
  · intro i j p q hp hq hsame
    rcases hcases i p hp with ⟨rfl, rfl⟩ | holdp
    · rcases hcases j q hq with ⟨rfl, -⟩ | holdq
      · rfl
      · -- the number of the new connection is that of no other one
        have hlt := h.seated_lt j q holdq
        rw [← hsame] at hlt
        exact absurd hlt (Nat.lt_irrefl _)
    · rcases hcases j q hq with ⟨rfl, rfl⟩ | holdq
      · have hlt := h.seated_lt i p holdp
        rw [hsame] at hlt
        exact absurd hlt (Nat.lt_irrefl _)
      · exact h.distinct i j p q holdp holdq hsame
  · intro i p hp
    rcases hcases i p hp with ⟨-, rfl⟩ | hold
    · refine ⟨[], ?_⟩
      have hlink : l.link (.new s.nextId now) 0 = .new s.nextId now := by
        show (⟨_, (l.since s.nextId).map _, l.received s.nextId, 0⟩ : Peer.Link) = _
        rw [since, hjoined, List.drop_length, hnothing]
        rfl
      show (l.link _ 0).Untorn []
      rw [hlink]
      exact .new s.nextId now
    · exact h.untorn i p hold

/-- A frame is published: it is armed at every seat. -/
theorem publish (h : l.Tracks s) {f : Frame} (hf : f.WellSized) {now : Nat}
    (hseats : s'.frameSeats = s.frameSeats.armAll now f.toBytes)
    (hnext : s'.nextId = s.nextId) (hlast : s'.lastPublished = some f.header.frameId) :
    (l.publish s.nextId f).Tracks s' := by
  have hcases : ∀ (i : Fin maxPeers) p', s'.frameSeats.get i = some p' →
      ∃ p, s.frameSeats.get i = some p ∧ p' = p.arm now f.toBytes := by
    intro i p' hp'
    rw [hseats, Seats.armAll, Seats.get_map] at hp'
    obtain ⟨p, hp, heq⟩ := Option.map_eq_some_iff.mp hp'
    exact ⟨p, hp, heq.symm⟩
  have hid := Peer.id_arm now f.toBytes
  -- a connection that was made before has one more frame to receive
  have hsince : ∀ id, id < s.nextId → (l.publish s.nextId f).since id = l.since id ++ [f] := by
    intro id hlt
    have hjoined : (l.publish s.nextId f).joined id = l.joined id := if_pos hlt
    rw [since, hjoined]
    exact List.drop_append_of_le_length (h.joined_le id)
  have hahead : ∀ id, ¬ id < s.nextId →
      (l.publish s.nextId f).joined id = (l.publish s.nextId f).published.length := by
    intro id hnot
    have hjoined : (l.publish s.nextId f).joined id = l.published.length + 1 := if_neg hnot
    have hlength : (l.published ++ [f]).length = l.published.length + 1 := List.length_append
    rw [hjoined, ← hlength]
    rfl
  refine ⟨?_, ?_, ?_, ?_, ?_, ?_, ?_, ?_⟩
  · intro g hg
    rcases List.mem_append.mp hg with hold | hnew
    · exact h.sized g hold
    · rw [List.mem_singleton.mp hnew]
      exact hf
  · rw [hlast]
    show _ = (l.published ++ [f]).getLast?.map _
    rw [List.getLast?_append]
    rfl
  · intro id
    by_cases hlt : id < s.nextId
    · rw [hsince id hlt]
      exact (h.received id).more [f]
    · have hnothing : (l.publish s.nextId f).received id = [] :=
        (h.ahead id (Nat.le_of_not_lt hlt)).2
      rw [hnothing]
      exact Received.nothing _
  · intro id
    by_cases hlt : id < s.nextId
    · have hjoined : (l.publish s.nextId f).joined id = l.joined id := if_pos hlt
      rw [hjoined]
      exact Nat.le_trans (h.joined_le id) (by simp [Ledger.publish])
    · exact Nat.le_of_eq (hahead id hlt)
  · rw [hnext]
    intro id hle
    exact ⟨hahead id (Nat.not_lt_of_le hle), (h.ahead id hle).2⟩
  · rw [hnext]
    intro i p' hp'
    obtain ⟨p, hp, rfl⟩ := hcases i p' hp'
    rw [hid]
    exact h.seated_lt i p hp
  · intro i j p' q' hp' hq' hsame
    obtain ⟨p, hp, rfl⟩ := hcases i p' hp'
    obtain ⟨q, hq, rfl⟩ := hcases j q' hq'
    rw [hid, hid] at hsame
    exact h.distinct i j p q hp hq hsame
  · intro i p' hp'
    obtain ⟨p, hp, rfl⟩ := hcases i p' hp'
    obtain ⟨complete, huntorn⟩ := h.untorn i p hp
    refine ⟨complete, ?_⟩
    have hlink : (l.publish s.nextId f).link (p.arm now f.toBytes) complete.length =
        (l.link p complete.length).step (.arm now f.toBytes) := by
      rw [link, hid, hsince p.id (h.seated_lt i p hp), List.map_append]
      rfl
    rw [hlink]
    exact huntorn.arm now f.toBytes

/-- The socket of a connection takes the bytes of a flush. The connection stays or
leaves then; the others stay. -/
theorem flush (h : l.Tracks s) {seat : Fin maxPeers} {p : Peer}
    (hp : s.frameSeats.get seat = some p) (writes : List (Nat × Peer.WriteOutcome))
    (hseats : ∀ (i : Fin maxPeers) q, s'.frameSeats.get i = some q →
      i = seat ∧ q = (p.flush writes).peer ∨ i ≠ seat ∧ s.frameSeats.get i = some q)
    (hnext : s'.nextId = s.nextId) (hlast : s'.lastPublished = s.lastPublished) :
    (l.take p.id (p.flush writes).taken).Tracks s' := by
  generalize hbytes : (p.flush writes).taken = bytes
  have hid := p.id_flush writes
  have htaken : (l.take p.id bytes).received p.id = l.received p.id ++ bytes := if_pos rfl
  have hkept : ∀ id, id ≠ p.id → (l.take p.id bytes).received id = l.received id :=
    fun id hne => if_neg hne
  obtain ⟨complete, huntorn⟩ := h.untorn seat p hp
  obtain ⟨complete', hflushed⟩ := huntorn.flush writes
  have hfinished := hflushed.finished
  have hlink : (l.take p.id bytes).link (p.flush writes).peer complete'.length =
      (l.link p complete.length).step (.flush writes) := by
    rw [link, hid, htaken, ← hfinished]
    simp only [Peer.Link.step, link, hbytes]
    rfl
  rw [← hlink] at hflushed
  refine ⟨h.sized, hlast.trans h.last, ?_, h.joined_le, ?_, ?_, ?_, ?_⟩
  · intro id
    by_cases hsame : id = p.id
    · subst hsame
      have hreceived := hflushed.received (h.sized_since p.id) (by rw [link, hid]; rfl)
      rwa [link, hid] at hreceived
    · rw [hkept id hsame]
      exact h.received id
  · rw [hnext]
    intro id hle
    have hne : id ≠ p.id := Nat.ne_of_gt (Nat.lt_of_lt_of_le (h.seated_lt seat p hp) hle)
    rw [hkept id hne]
    exact h.ahead id hle
  · rw [hnext]
    intro i q hq
    rcases hseats i q hq with ⟨-, rfl⟩ | ⟨-, hold⟩
    · rw [hid]
      exact h.seated_lt seat p hp
    · exact h.seated_lt i q hold
  · intro i j q r hq hr hsame
    rcases hseats i q hq with ⟨rfl, rfl⟩ | ⟨hi, holdq⟩
    · rcases hseats j r hr with ⟨rfl, -⟩ | ⟨-, holdr⟩
      · rfl
      · exact h.distinct i j p r hp holdr (hid ▸ hsame)
    · rcases hseats j r hr with ⟨rfl, rfl⟩ | ⟨-, holdr⟩
      · exact h.distinct i j q p holdq hp (hid ▸ hsame)
      · exact h.distinct i j q r holdq holdr hsame
  · intro i q hq
    rcases hseats i q hq with ⟨-, rfl⟩ | ⟨hi, hold⟩
    · exact ⟨complete', hflushed⟩
    · -- another connection has another number, so its stream is as it was
      have hne : q.id ≠ p.id := fun hsame => hi (h.distinct i seat q p hold hp hsame)
      obtain ⟨others, hothers⟩ := h.untorn i q hold
      refine ⟨others, ?_⟩
      rw [link, hkept q.id hne]
      exact hothers

/-! ## Events -/

/-- One connection leaves. -/
theorem remove (h : l.Tracks s) (seat : Fin maxPeers) :
    l.Tracks { s with frameSeats := s.frameSeats.remove seat } :=
  h.thin (fun _ _ hp => (Seats.of_get_remove hp).2) rfl rfl

theorem welcome (h : l.Tracks s) (role : Role) (now : Nat) (usable : Bool) :
    l.Tracks (s.welcome role now usable) := by
  unfold Service.welcome
  split
  · exact h.thin (fun _ _ => id) rfl rfl
  · split
    · exact h
    · cases role with
      | frame =>
        dsimp only
        split
        · next seats hinsert =>
          obtain ⟨seat, -, rfl⟩ := Option.map_eq_some_iff.mp hinsert
          exact h.join rfl rfl rfl
        · exact h.skipId rfl rfl rfl
      | command =>
        dsimp only
        split
        · exact h.skipId rfl rfl rfl
        · exact h.skipId rfl rfl rfl

theorem accept (h : l.Tracks s) (role : Role) (now : Nat)
    (outcomes : List Service.AcceptOutcome) : l.Tracks (s.accept role now outcomes) := by
  induction outcomes generalizing s with
  | nil => exact h
  | cons outcome later ih =>
    cases outcome with
    | connection usable => exact ih (h.welcome role now usable)
    | interrupted => exact ih h
    | failed => exact h

theorem discard (h : l.Tracks s) (seat : Fin maxPeers) (id : Nat) (read : Service.ReadOutcome) :
    l.Tracks (s.discard seat id read) := by
  unfold Service.discard
  split
  · exact h.remove seat
  · exact h.remove seat
  · exact h

theorem dropStalled (h : l.Tracks s) (now : Nat) :
    l.Tracks { s with frameSeats := s.frameSeats.dropStalled s.writeTimeout now } := by
  refine h.thin ?_ rfl rfl
  intro i p hp
  have hkept : ((s.frameSeats.get i).filter fun p => !p.stalled s.writeTimeout now) = some p := by
    rw [← hp]
    exact (Seats.get_map _ s.frameSeats i).symm
  exact (Option.filter_eq_some_iff.mp hkept).1

theorem close (h : l.Tracks s) : l.Tracks s.close := by
  refine h.thin ?_ rfl rfl
  intro i p hp
  have hnone : s.close.frameSeats.get i = none := Vector.getElem_replicate i.isLt
  rw [hnone] at hp
  cases hp

/-- Writing to a connection gives what its socket took, also if it ends broken. -/
theorem send_seated (h : l.Tracks s) {seat : Fin maxPeers} {p : Peer}
    (hp : s.frameSeats.get seat = some p) (writes : List (Nat × Peer.WriteOutcome)) :
    (s.send seat p.id writes).1 = p.swallows writes := by
  have hget : s.frameSeats.get? seat p.id = some p :=
    Option.filter_eq_some_iff.mpr ⟨hp, decide_eq_true rfl⟩
  simp only [Service.send, hget]
  exact (h.received_seated hp).2 writes

/-- Writing to a connection that is there is a flush of it. -/
theorem send (h : l.Tracks s) (seat : Fin maxPeers) (id : Nat)
    (writes : List (Nat × Peer.WriteOutcome)) :
    (l.take id (s.send seat id writes).1).Tracks (s.send seat id writes).2 := by
  unfold Service.send
  cases hget : s.frameSeats.get? seat id with
  | none => rwa [take_nil]
  | some p =>
    obtain ⟨hp, hid⟩ := Option.filter_eq_some_iff.mp hget
    rw [decide_eq_true_iff] at hid
    subst hid
    dsimp only
    cases hending : (p.flush writes).ending with
    | broken =>
      refine h.flush hp writes ?_ rfl rfl
      intro i q hq
      exact .inr (Seats.of_get_remove hq)
    | blocked => exact h.flush hp writes (fun i q => Seats.of_get_put) rfl rfl
    | finished => exact h.flush hp writes (fun i q => Seats.of_get_put) rfl rfl

theorem serveFrame (h : l.Tracks s) (seat : Fin maxPeers) (id : Nat) (ready : Service.Readiness)
    (read : Service.ReadOutcome) (writes : List (Nat × Peer.WriteOutcome)) :
    (l.take id (s.serveFrame seat id ready read writes).1).Tracks
      (s.serveFrame seat id ready read writes).2 := by
  unfold Service.serveFrame
  dsimp only
  have hafter : l.Tracks (if ready.closing then s.discard seat id read else s) := by
    split
    · exact h.discard seat id read
    · exact h
  generalize (if ready.closing then s.discard seat id read else s) = s at hafter ⊢
  split
  · rw [take_nil]
    exact hafter.remove seat
  · split
    · exact hafter.send seat id writes
    · rwa [take_nil]

theorem serve {σ : Type} (h : l.Tracks s) (control : Control σ) (now : Nat)
    (event : Service.Event) (world : σ) :
    (l.record event (s.serve control now event world).1.taken).Tracks
      (s.serve control now event world).2.1 := by
  cases event with
  | listener role outcomes => exact h.accept role now outcomes
  | frame seat id ready read writes => exact h.serveFrame seat id ready read writes
  | command seat id ready read =>
    show l.Tracks (s.serveCommand control seat id ready read world).2.1
    unfold Service.serveCommand
    split
    · unfold Service.handleCommand
      split
      · exact h
      · split
        · exact h.thin (fun _ _ hp => hp) rfl rfl
        · exact h.thin (fun _ _ hp => hp) rfl rfl
    · split
      · exact h.thin (fun _ _ hp => hp) rfl rfl
      · exact h

end Tracks

end Ledger

end FrameServer
