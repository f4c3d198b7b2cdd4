import FrameServer.Control.Scripted
import FrameServer.Proofs.Broadcast.Ledger
import FrameServer.Proofs.Ring.Newest

/-!
# FrameServer.Proofs.Broadcast.Order — frames are published in order

Frames come into a ring, are taken out of it and forgotten, a service publishes the
newest one from time to time, and connections come, take what their sockets want and
leave, all in any order. If the frames that come in have increasing numbers, so have
those that are published, and those that a connection receives are some of them, as
they were published.

1. **Rows** of increasing numbers.
2. **Broadcasts**: a ring and a service with its ledger, and what can happen to them.
3. **Ticks** publish the newest frame, or nothing.
4. **What every act keeps**
5. **Order** of what is published and received.
-/

namespace FrameServer

/-! ## Rows -/

/-- The frames of a row have increasing numbers. -/
def Frame.Increasing (frames : List Frame) : Prop :=
  frames.Pairwise fun f g => f.header.frameId < g.header.frameId

/-- The shots of a row have increasing numbers. -/
def Shot.Increasing (shots : List Shot) : Prop :=
  shots.Pairwise fun a b => a.header.frameId < b.header.frameId

instance (shots : List Shot) : Decidable (Shot.Increasing shots) :=
  inferInstanceAs (Decidable (shots.Pairwise _))

/-- The last one of a row comes after every other one. -/
theorem rel_of_getLast? {α : Type} {r : α → α → Prop} {row : List α} (hrow : row.Pairwise r)
    {last : α} (hlast : row.getLast? = some last) {a : α} (ha : a ∈ row) : a = last ∨ r a last := by
  obtain ⟨before, rfl⟩ := List.getLast?_eq_some_iff.mp hlast
  rcases List.mem_append.mp ha with hbefore | hend
  · have hrel := (List.pairwise_append.mp hrow).2.2
    exact .inr (hrel a hbefore last List.mem_cons_self)
  · exact .inl (List.mem_singleton.mp hend)

/-- A frame whose number is at least that of each frame of an increasing row, and not
that of the last one, goes behind the row. -/
theorem Frame.Increasing.snoc {frames : List Frame} (h : Increasing frames) {f : Frame}
    (hlast : frames.getLast?.map (·.header.frameId) ≠ some f.header.frameId)
    (hle : ∀ g ∈ frames, g.header.frameId ≤ f.header.frameId) : Increasing (frames ++ [f]) := by
  refine List.pairwise_append.mpr ⟨h, List.pairwise_singleton _ _, ?_⟩
  intro g hg k hk
  rw [List.mem_singleton.mp hk]
  cases hend : frames.getLast? with
  | none =>
    rw [List.getLast?_eq_none_iff.mp hend] at hg
    cases hg
  | some last =>
    -- the last one comes before the new one, and each other one before the last one
    have hmem := List.mem_of_getLast? hend
    have hne : last.header.frameId ≠ f.header.frameId := by
      intro heq
      rw [hend, Option.map_some, heq] at hlast
      exact hlast rfl
    have hlt := UInt64.lt_of_le_of_ne (hle last hmem) hne
    rcases rel_of_getLast? h hend hg with rfl | hbefore
    · exact hlt
    · exact UInt64.lt_trans hbefore hlt

/-! ## Broadcasts -/

/-- A service that publishes the frames of a ring. -/
structure Broadcast (σ : Type) where
  ring : Ring
  service : Service
  /-- What commands act on. -/
  world : σ
  /-- The newest shot since the frames of the ring were forgotten. -/
  newest : Option Shot
  ledger : Ledger

namespace Broadcast

/-- What can happen to a broadcast. -/
inductive Act where
  | ring (op : Ring.Op)
  /-- The service publishes if that is due; shots arrive while it waits for a frame. -/
  | tick (now : Nat) (arriving : List Shot)
  | serve (now : Nat) (event : Service.Event)
  | dropStalled (now : Nat)
  | close
deriving Repr

/-- The shots that come into the ring. -/
def Act.shots : Act → List Shot
  | ring op => op.shots
  | tick _ arriving => arriving
  | serve _ _ => []
  | dropStalled _ => []
  | close => []

variable {σ : Type}

/-- Nothing happened yet. -/
def new (requested : Nat) (width height : UInt32) (config : ServerConfig) (world : σ) :
    Broadcast σ :=
  ⟨.empty requested width height, .new config, world, none, .empty⟩

/-- The service looks whether to publish the newest frame. That it did so is seen from
its counter. -/
def tick (now : Nat) (arriving : List Shot) (b : Broadcast σ) : Broadcast σ :=
  let op := Ring.Op.peekBlocking arriving
  let (frame?, ring) := b.ring.perform op
  let service := b.service.tick now frame?
  let published := if b.service.published < service.published then frame? else none
  { b with
    ring, service
    newest := op.newest b.newest
    ledger := match published with
      | some frame => b.ledger.publish b.service.nextId frame
      | none => b.ledger }

def step (control : Control σ) (b : Broadcast σ) : Act → Broadcast σ
  | .ring op => { b with ring := (b.ring.perform op).2, newest := op.newest b.newest }
  | .tick now arriving => b.tick now arriving
  | .serve now event =>
    let (output, service, world) := b.service.serve control now event b.world
    { b with service, world, ledger := b.ledger.record event output.taken }
  | .dropStalled now =>
    { b with service := { b.service with
        frameSeats := b.service.frameSeats.dropStalled b.service.writeTimeout now } }
  | .close => { b with service := b.service.close }

def run (control : Control σ) (b : Broadcast σ) (acts : List Act) : Broadcast σ :=
  acts.foldl (step control) b

/-! ## Ticks -/

/-- What a tick does: it publishes what the ring shows of the newest shot, which it
waits for if there is none, and arms every frame connection with the bytes of the frame.
It publishes nothing if it is not due, nobody listens, there is no frame, or the newest
one was the last to be published. -/
inductive Ticked (now : Nat) (arriving : List Shot) (b : Broadcast σ) : Broadcast σ → Prop where
  | published {b'} (shot : Shot) (frame : Frame) (hdue : b.service.isDue now = true)
      (hseats : b.service.frameSeats.isEmpty = false)
      (hnewest : b.newest.or arriving.head? = some shot)
      (hnew : b.ledger.published.getLast?.map (·.header.frameId) ≠ some shot.header.frameId)
      (hshown : (b.ring.peekBlocking arriving).1 = some frame)
      (hkept : ∃ old, frame = shot.keptOver b.ring.slotLength old)
      (hpublished : b'.ledger.published = b.ledger.published ++ [frame])
      (harmed : ∀ seat : Fin maxPeers, b'.service.frameSeats.get seat =
        (b.service.frameSeats.get seat).map fun peer => peer.arm now frame.toBytes) :
      Ticked now arriving b b'
  | quiet {b'} (hquiet : b.service.isDue now = false ∨ b.service.frameSeats.isEmpty = true ∨
        b.newest.or arriving.head? = none ∨ ∃ shot, b.newest.or arriving.head? = some shot ∧
          b.ledger.published.getLast?.map (·.header.frameId) = some shot.header.frameId)
      (hpublished : b'.ledger.published = b.ledger.published)
      (hseats : b'.service.frameSeats = b.service.frameSeats) : Ticked now arriving b b'

/-- A service publishes a frame at a tick, or it only remembers the time. -/
theorem service_tick (s : Service) (now : Nat) (frame? : Option Frame) :
    (∃ frame, frame? = some frame ∧ s.isDue now = true ∧ s.frameSeats.isEmpty = false ∧
        s.lastPublished ≠ some frame.header.frameId ∧
        s.tick now frame? =
          { s with
            lastTick := some now
            lastPublished := some frame.header.frameId
            frameSeats := s.frameSeats.armAll now frame.toBytes
            published := s.published + 1 }) ∨
      (s.isDue now = false ∨ s.frameSeats.isEmpty = true ∨ frame? = none ∨
          ∃ frame, frame? = some frame ∧ s.lastPublished = some frame.header.frameId) ∧
        ∃ lastTick, s.tick now frame? = { s with lastTick } := by
  unfold Service.tick
  cases hdue : s.isDue now with
  | false => exact .inr ⟨.inl rfl, s.lastTick, rfl⟩
  | true =>
    cases hseats : s.frameSeats.isEmpty with
    | true => exact .inr ⟨.inr (.inl rfl), s.lastTick, rfl⟩
    | false =>
      cases frame? with
      | none => exact .inr ⟨.inr (.inr (.inl rfl)), some now, rfl⟩
      | some frame =>
        by_cases hold : s.lastPublished = some frame.header.frameId
        · refine .inr ⟨.inr (.inr (.inr ⟨frame, rfl, hold⟩)), some now, ?_⟩
          simp [Service.publish, hold]
        · refine .inl ⟨frame, rfl, rfl, rfl, hold, ?_⟩
          simp only [Bool.not_false, Bool.and_true, if_true, Service.publish, hold, if_false]
          rfl

/-! ## What every act keeps -/

/-- The ring shows the newest shot, which is the last one that came in, the ledger is
that of the service, and what was published came in before and is in order. -/
structure Kept (bound length : Nat) (past : List Shot) (b : Broadcast σ) : Prop where
  ring : ∃ q, b.ring.Represents bound length q ∧ Shot.KeptAs length b.newest q.latest
  tracks : b.ledger.Tracks b.service
  newest_last : ∀ shot, b.newest = some shot → past.getLast? = some shot
  from_past : ∀ f ∈ b.ledger.published, ∃ shot ∈ past, shot.header.frameId = f.header.frameId
  increasing : Frame.Increasing b.ledger.published

namespace Kept

variable {bound length : Nat} {past : List Shot} {b : Broadcast σ}

theorem new (requested : Nat) (width height : UInt32) (config : ServerConfig) (world : σ) :
    Kept (max requested 1) (width.toNat * height.toNat) []
      (.new requested width height config world) := by
  refine ⟨⟨_, .empty requested width height, .none⟩, .new config, ?_, ?_, List.Pairwise.nil⟩
  · rintro shot ⟨⟩
  · rintro f ⟨⟩

/-- The newest shot after an operation is the last one that came in. -/
theorem newest_last_append (h : Kept bound length past b) (op : Ring.Op) (shot : Shot)
    (hnewest : op.newest b.newest = some shot) :
    (past ++ op.shots).getLast? = some shot := by
  rw [List.getLast?_append]
  rcases Ring.Op.newest_eq hnewest with hnew | ⟨hnone, hold⟩
  · rw [hnew, Option.some_or]
  · rw [hnone]
    exact h.newest_last shot hold

theorem from_past_append (h : Kept bound length past b) (shots : List Shot) :
    ∀ f ∈ b.ledger.published,
      ∃ shot ∈ past ++ shots, shot.header.frameId = f.header.frameId := by
  intro f hf
  obtain ⟨shot, hshot, hid⟩ := h.from_past f hf
  exact ⟨shot, List.mem_append_left shots hshot, hid⟩

/-- The service changed, but nothing was published. -/
theorem serviceChanged (h : Kept bound length past b) {service : Service} {world : σ}
    {ledger : Ledger} (htracks : ledger.Tracks service)
    (hpublished : ledger.published = b.ledger.published) :
    Kept bound length past { b with service, world, ledger } :=
  ⟨h.ring, htracks, h.newest_last, hpublished ▸ h.from_past, hpublished ▸ h.increasing⟩

theorem ringChanged (h : Kept bound length past b) (op : Ring.Op) :
    Kept bound length (past ++ op.shots)
      { b with ring := (b.ring.perform op).2, newest := op.newest b.newest } := by
  obtain ⟨q, hring, hshown⟩ := h.ring
  exact ⟨⟨_, (hring.perform op).2, Queue.perform_latest hshown op⟩, h.tracks,
    h.newest_last_append op, h.from_past_append op.shots, h.increasing⟩

/-- The number of the shot that a tick finds is at least that of each frame that was
published. -/
theorem le_newest (h : Kept bound length past b) {arriving : List Shot}
    (hids : Shot.Increasing (past ++ arriving)) {shot : Shot}
    (hnewest : b.newest.or arriving.head? = some shot) :
    (∃ other ∈ past ++ arriving, other.header.frameId = shot.header.frameId) ∧
      ∀ f ∈ b.ledger.published, f.header.frameId ≤ shot.header.frameId := by
  obtain ⟨hpast, -, hbefore⟩ := List.pairwise_append.mp hids
  cases hold : b.newest with
  | none =>
    -- the tick waits for the first shot that arrives, which is behind all before
    rw [hold, Option.none_or] at hnewest
    have hmem := List.mem_of_head? hnewest
    refine ⟨⟨shot, List.mem_append_right past hmem, rfl⟩, ?_⟩
    intro f hf
    obtain ⟨earlier, hearlier, hid⟩ := h.from_past f hf
    rw [← hid]
    exact UInt64.le_of_lt (hbefore earlier hearlier shot hmem)
  | some newest =>
    rw [hold, Option.some_or] at hnewest
    cases hnewest
    have hlast := h.newest_last shot hold
    have hmem := List.mem_of_getLast? hlast
    refine ⟨⟨shot, List.mem_append_left arriving hmem, rfl⟩, ?_⟩
    intro f hf
    obtain ⟨earlier, hearlier, hid⟩ := h.from_past f hf
    rw [← hid]
    rcases rel_of_getLast? hpast hlast hearlier with rfl | hlt
    · exact UInt64.le_refl _
    · exact UInt64.le_of_lt hlt

/-- The frame that a tick finds is what the ring kept of the newest shot. -/
theorem shown (h : Kept bound length past b) (arriving : List Shot) :
    Shot.KeptAs length (b.newest.or arriving.head?) (b.ring.peekBlocking arriving).1 := by
  obtain ⟨q, hring, hkept⟩ := h.ring
  have hanswer : Shot.KeptAs length (b.newest.or arriving.head?)
      (q.perform bound length (.peekBlocking arriving)).1 :=
    Queue.peekBlocking_answer hkept arriving
  rw [← (hring.perform (.peekBlocking arriving)).1] at hanswer
  exact hanswer

theorem tick (h : Kept bound length past b) (now : Nat) (arriving : List Shot)
    (hids : Shot.Increasing (past ++ arriving)) :
    Ticked now arriving b (b.tick now arriving) ∧
      Kept bound length (past ++ arriving) (b.tick now arriving) := by
  have hring := h.ringChanged (.peekBlocking arriving)
  have hshown := h.shown arriving
  have hlast := h.tracks.last
  generalize hframe : (b.ring.peekBlocking arriving).1 = frame? at hshown
  have hanswer : (b.ring.perform (.peekBlocking arriving)).1 = frame? := hframe
  unfold Broadcast.tick
  simp only [hanswer]
  rcases service_tick b.service now frame? with
    ⟨frame, rfl, hdue, hseats, hnew, htick⟩ | ⟨hquiet, lastTick, htick⟩
  · generalize hnewest : b.newest.or arriving.head? = newest? at hshown
    cases hshown with
    | some shot old =>
      obtain ⟨q, hrepresents, -⟩ := h.ring
      have hlength : b.ring.slotLength = length := hrepresents.slotLength
      have hsized : (shot.keptOver length old).WellSized :=
        shot.keptOver_wellSized (hlength ▸ b.ring.slotLength_lt) old
      obtain ⟨⟨other, hother, hsame⟩, hle⟩ := h.le_newest hids hnewest
      rw [hlast] at hnew
      simp only [htick, Nat.lt_succ_self, if_true]
      constructor
      · refine .published shot _ hdue hseats hnewest hnew hframe ⟨old, ?_⟩ rfl ?_
        · rw [hlength]
        · intro seat
          exact Vector.getElem_map _ seat.isLt
      · refine ⟨hring.ring, h.tracks.publish hsized rfl rfl rfl, hring.newest_last, ?_,
          h.increasing.snoc hnew hle⟩
        intro f hf
        rcases List.mem_append.mp hf with hold | hmem
        · exact hring.from_past f hold
        · rw [List.mem_singleton.mp hmem]
          exact ⟨other, hother, hsame⟩
  · simp only [htick, Nat.lt_irrefl, if_false]
    constructor
    · refine .quiet ?_ rfl rfl
      generalize b.newest.or arriving.head? = newest? at hshown ⊢
      rcases hquiet with hdue | hseats | rfl | ⟨frame, rfl, hold⟩
      · exact .inl hdue
      · exact .inr (.inl hseats)
      · cases hshown with
        | none => exact .inr (.inr (.inl rfl))
      · cases hshown with
        | some shot old =>
          rw [hlast] at hold
          exact .inr (.inr (.inr ⟨shot, rfl, hold⟩))
    · exact hring.serviceChanged (h.tracks.thin (fun _ _ => id) rfl rfl) rfl

theorem step (h : Kept bound length past b) (control : Control σ) (act : Act)
    (hids : Shot.Increasing (past ++ act.shots)) :
    Kept bound length (past ++ act.shots) (b.step control act) := by
  cases act with
  | ring op => exact h.ringChanged op
  | tick now arriving => exact (h.tick now arriving hids).2
  | serve now event =>
    rw [Act.shots, List.append_nil]
    refine h.serviceChanged (h.tracks.serve control now event b.world) ?_
    -- what a socket takes does not change what was published
    cases event <;> rfl
  | dropStalled now =>
    rw [Act.shots, List.append_nil]
    exact h.serviceChanged (h.tracks.dropStalled now) rfl
  | close =>
    rw [Act.shots, List.append_nil]
    exact h.serviceChanged h.tracks.close rfl

theorem run (h : Kept bound length past b) (control : Control σ) (acts : List Act)
    (hids : Shot.Increasing (past ++ acts.flatMap Act.shots)) :
    Kept bound length (past ++ acts.flatMap Act.shots) (b.run control acts) := by
  induction acts generalizing past b with
  | nil =>
    rw [List.flatMap_nil, List.append_nil]
    exact h
  | cons act later ih =>
    rw [List.flatMap_cons, ← List.append_assoc] at hids ⊢
    -- the shots up to now are the first ones of the run
    have hnow := hids.sublist (List.sublist_append_left _ _)
    exact ih (h.step control act hnow) hids

end Kept

/-! ## Order -/

/-- If the shots that come into the ring have increasing numbers, so have the frames
that are published. Each tick publishes what the ring shows of the newest shot, and arms
every frame connection with it, or publishes nothing. The frames that a connection
receives are some of those that were published since it was made, in order and as they
were published. One that is there has received nothing else, but for what was sent of the
frame that is on its way, and the service gets from a flush of it, however that ends, the
bytes that its socket took. -/
theorem published_and_received_in_order (control : Control σ) (requested : Nat)
    (width height : UInt32) (config : ServerConfig) (world : σ) (acts : List Act)
    (hids : Shot.Increasing (acts.flatMap Act.shots)) :
    let start := Broadcast.new requested width height config world
    let ledger := (start.run control acts).ledger
    Frame.Increasing ledger.published ∧
      (∀ earlier now arriving later, acts = earlier ++ Act.tick now arriving :: later →
        Ticked now arriving (start.run control earlier)
          ((start.run control earlier).step control (.tick now arriving))) ∧
      (∀ id, (ledger.frames id).Sublist (ledger.since id) ∧
        Frame.Increasing (ledger.frames id)) ∧
      ∀ (seat : Fin maxPeers) peer,
        (start.run control acts).service.frameSeats.get seat = some peer →
        ledger.received peer.id = (ledger.frames peer.id).flatMap Frame.toBytes ++ peer.begun ∧
          ∀ writes, (peer.flush writes).taken = peer.swallows writes ∧
            ((start.run control acts).service.send seat peer.id writes).1 =
              peer.swallows writes := by
  intro start ledger
  have hstart := Kept.new requested width height config world
  have hkept := hstart.run control acts hids
  refine ⟨hkept.increasing, ?_, ?_, ?_⟩
  · rintro earlier now arriving later rfl
    rw [List.flatMap_append, List.flatMap_cons, ← List.append_assoc] at hids
    have hnow := hids.sublist (List.sublist_append_left _ _)
    have hearlier := hstart.run control earlier (hnow.sublist (List.sublist_append_left _ _))
    exact (hearlier.tick now arriving hnow).1
  · intro id
    have hsublist := (hkept.tracks.received id).readAll_sublist (hkept.tracks.sized_since id)
    exact ⟨hsublist, hkept.increasing.sublist (hsublist.trans (List.drop_sublist _ _))⟩
  · intro seat peer hpeer
    obtain ⟨hreceived, htaken⟩ := hkept.tracks.received_seated hpeer
    exact ⟨hreceived, fun writes => ⟨htaken writes, hkept.tracks.send_seated hpeer writes⟩⟩

/-- Frames of one pixel; the second connection comes when the first one is in the middle
of a frame, and both take the frame that is published after that. -/
def twoConnections : List Act :=
  let shot : UInt64 → Shot := fun id => ⟨.full 1 1 id 0, [7]⟩
  let ready : Service.Readiness := ⟨false, false, false, false, true⟩
  let join : Act := .serve 0 (.listener .frame [.connection true])
  let send : Fin maxPeers → Nat → Nat → Act := fun seat id count =>
    .serve 0 (.frame seat id ready .again [(0, .accepted count)])
  let first : Fin maxPeers := ⟨0, by decide⟩
  let second : Fin maxPeers := ⟨1, by decide⟩
  [join, .ring (.put (shot 3)), .tick 0 [], send first 0 50, join, .ring (.put (shot 5)),
    .tick 1000000000 [], send first 0 100, send first 0 200, send second 1 200]

theorem received_of_two_connections :
    let control := ScriptedControl.control []
    let ledger := ((Broadcast.new 2 1 1 {} []).run control twoConnections).ledger
    Shot.Increasing (twoConnections.flatMap Act.shots) ∧
      ledger.published.map (·.header.frameId) = [3, 5] ∧
      (∀ id, (ledger.frames id).Sublist (ledger.since id) ∧
        Frame.Increasing (ledger.frames id)) ∧
      (ledger.received 0).length = 242 ∧ (ledger.received 1).length = 121 := by
  intro control ledger
  have hids : Shot.Increasing (twoConnections.flatMap Act.shots) := by decide +kernel
  obtain ⟨-, -, hreceived, -⟩ :=
    published_and_received_in_order control 2 1 1 {} [] twoConnections hids
  exact ⟨hids, by decide +kernel, hreceived, by decide +kernel, by decide +kernel⟩

end Broadcast

end FrameServer
