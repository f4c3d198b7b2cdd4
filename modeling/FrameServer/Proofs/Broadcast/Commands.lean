import FrameServer.Control.Scripted
import FrameServer.Proofs.Broadcast.Isolation

/-!
# FrameServer.Proofs.Broadcast.Commands — a command connection is served once

A command connection that has something to be read, has hung up or has failed is out of
its seat after its turn, and a number is never given again. So no connection is answered
twice, whoever gets its seat. The commands that were answered are carried out one after
the other, in the order in which the connections had their turns.

1. **Replaying** commands.
2. **Gone connections** do not come back.
3. **Turns**: what a turn does with commands.
4. **Rounds**: a round of the service is turns of the loop.
5. **Books**: what is known of the commands that were answered.
6. **Once**
-/

namespace FrameServer

/-! ## Replaying -/

section Replay

variable {σ : Type} (control : Control σ)

/-- Carries out the commands in some texts one after the other. -/
def replay : List (List Char) → σ → List Reply × σ
  | [], world => ([], world)
  | text :: later, world =>
    let (reply, world) := answer control text world
    let (replies, world) := replay later world
    (reply :: replies, world)

/-- One more command. -/
theorem replay_snoc (texts : List (List Char)) (text : List Char) (world : σ) :
    replay control (texts ++ [text]) world =
      ((replay control texts world).1 ++ [(answer control text (replay control texts world).2).1],
        (answer control text (replay control texts world).2).2) := by
  induction texts generalizing world with
  | nil => rfl
  | cons first later ih =>
    rw [List.cons_append]
    simp only [replay]
    rw [ih]
    rfl

end Replay

namespace Service

variable {s s' : Service} {id : Nat}

/-! ## Gone connections -/

/-- The number was given, and nobody who is seated has it. -/
structure Gone (id : Nat) (s : Service) : Prop where
  given : id < s.nextId
  nowhere : ∀ role (seat : Fin maxPeers) p, (s.seats role).get seat = some p → p.id ≠ id

namespace Gone

theorem thinned (h : Gone id s) (hthin : Thinned s s') : Gone id s' := by
  constructor
  · rw [hthin.nextId]
    exact h.given
  · intro role seat p' hp'
    rcases hthin.stayed role seat p' hp' with ⟨p, hp, hid⟩
    rw [← hid]
    exact h.nowhere role seat p hp

theorem welcomed (h : Gone id s) {role : Role} {now : Nat} {usable : Bool}
    (hw : Welcomed role now usable s s') : Gone id s' := by
  cases hw with
  | rejected hfull => exact h.thinned (.turnedAway s _)
  | unusable hroom husable => exact h
  | seated free husable hfree hlowest =>
    have hlt := h.given
    constructor
    · rw [nextId_joined]
      omega
    · intro other seat p hp
      rcases of_get_joined other hp with ⟨-, -, hnew⟩ | hold
      · -- the new connection has a number that was not given before
        rw [hnew]
        exact Nat.ne_of_gt hlt
      · exact h.nowhere other seat p hold

theorem accepted (h : Gone id s) {role : Role} {now : Nat} {outcomes : List AcceptOutcome}
    (ha : Accepted role now outcomes s s') : Gone id s' := by
  induction ha with
  | done => exact h
  | connection hfirst hlater ih => exact ih (h.welcomed hfirst)
  | interrupted hlater ih => exact ih h
  | failed => exact h

theorem dealt (h : Gone id s) {now : Nat} {event : Event} (hdealt : Dealt now event s s') :
    Gone id s' := by
  cases event with
  | listener role outcomes => exact h.accepted (hdealt.accepted role outcomes rfl)
  | frame seat other ready read writes => exact h.thinned (hdealt.only _ rfl).thinned
  | command seat other ready read => exact h.thinned (hdealt.only _ rfl).thinned

/-- A connection that left its seat is gone. -/
theorem of_vacated {role : Role} {seat : Fin maxPeers} {p : Peer} (hs : s.Seated)
    (hp : (s.seats role).get seat = some p) (honly : OnlySeat role seat s s')
    (hempty : (s'.seats role).get seat = none) : Gone p.id s' := by
  constructor
  · rw [honly.nextId]
    exact hs.below role seat p hp
  · intro other i q hq hsame
    by_cases hseat : (other, i) = (role, seat)
    · cases hseat
      rw [hempty] at hq
      cases hq
    · rw [honly.others other i hseat] at hq
      rcases hs.distinct other role i seat q p hq hp hsame with ⟨hother, hi⟩
      exact hseat (Prod.ext hother hi)

end Gone

end Service

/-! ## Turns -/

namespace Service

variable {s s' : Service} {id : Nat}

theorem handled_tick (s : Service) (now : Nat) (newest : Option Frame) :
    (s.tick now newest).handled = s.handled := by
  unfold tick
  split
  · cases newest with
    | none => rfl
    | some frame =>
      dsimp only
      unfold publish
      split
      · rfl
      · rfl
  · rfl

theorem handled_accept {role : Role} {now : Nat} {outcomes : List AcceptOutcome}
    (h : Accepted role now outcomes s s') : s'.handled = s.handled := by
  induction h with
  | done => rfl
  | connection hfirst hlater ih =>
    rw [ih]
    cases hfirst with
    | rejected hfull => rfl
    | unusable hroom husable => rfl
    | seated seat husable hfree hlowest => cases role <;> rfl
  | interrupted hlater ih => exact ih
  | failed => rfl

theorem handled_serveFrame (s : Service) (seat : Fin maxPeers) (id : Nat) (ready : Readiness)
    (read : ReadOutcome) (writes : List (Nat × Peer.WriteOutcome)) :
    (s.serveFrame seat id ready read writes).2.handled = s.handled := by
  have hdiscard : (s.discard seat id read).handled = s.handled := by
    unfold discard
    split
    · rfl
    · rfl
    · rfl
  have hsend : ∀ t : Service, (t.send seat id writes).2.handled = t.handled := by
    intro t
    unfold send
    split
    · rfl
    · dsimp only
      split
      · rfl
      · rfl
      · rfl
  have hfirst : (if ready.closing then s.discard seat id read else s).handled = s.handled := by
    split
    · exact hdiscard
    · rfl
  unfold serveFrame
  dsimp only
  split
  · exact hfirst
  · split
    · rw [hsend]
      exact hfirst
    · exact hfirst

/-! What the turn of a connection that is in its seat comes to. -/

section Turn

variable {σ : Type} {control : Control σ} {seat : Fin maxPeers} {p : Peer} {ready : Readiness}

theorem serveCommand_bytes (hget : s.commandSeats.get? seat id = some p)
    (hclosing : ready.closing = true) (data : Bytes) (world : σ) :
    s.serveCommand control seat id ready (.bytes data) world =
      (some (answer control (Text.ofBytes (data.take maxCommandLength)) world).1,
        { s with commandSeats := s.commandSeats.remove seat, handled := s.handled + 1 },
        (answer control (Text.ofBytes (data.take maxCommandLength)) world).2) := by
  unfold serveCommand handleCommand
  rw [if_pos hclosing, hget]

theorem serveCommand_nothing (hget : s.commandSeats.get? seat id = some p)
    (hclosing : ready.closing = true) {read : ReadOutcome} (hread : ∀ data, read ≠ .bytes data)
    (world : σ) :
    s.serveCommand control seat id ready read world =
      (none, { s with commandSeats := s.commandSeats.remove seat }, world) := by
  unfold serveCommand handleCommand
  rw [if_pos hclosing, hget]
  cases read with
  | bytes data => exact absurd rfl (hread data)
  | closed => rfl
  | again => rfl
  | failed => rfl

theorem serveCommand_quiet (hclosing : ready.closing = false) (read : ReadOutcome) (world : σ) :
    s.serveCommand control seat id ready read world =
      (none, if ready.invalid then { s with commandSeats := s.commandSeats.remove seat } else s,
        world) := by
  unfold serveCommand
  rw [hclosing, if_neg Bool.false_ne_true]
  split
  · rfl
  · rfl

/-- Nothing but the reply goes out to a command connection. -/
theorem serve_of_serveCommand {read : ReadOutcome} {reply : Option Reply} {world world' : σ}
    (hserve : s.serveCommand control seat id ready read world = (reply, s', world')) (now : Nat) :
    s.serve control now (.command seat id ready read) world = (⟨[], reply⟩, s', world') := by
  unfold serve
  simp only [hserve]

end Turn

end Service

namespace Loop

variable {σ : Type} {control : Control σ} {x y : Loop σ} {m : Move} {id : Nat}

theorem answered?_none (event : Service.Event) : answered? event none = none := by
  cases event with
  | listener role outcomes => rfl
  | frame seat id ready read writes => rfl
  | command seat id ready read => cases read <;> rfl

theorem deal_of_serve {now : Nat} {event : Service.Event} {output : Service.Output} {s : Service}
    {world : σ} (hserve : x.service.serve control now event x.world = (output, s, world)) :
    x.deal control now event =
      { x with
        service := s, world, answered := x.answered ++ (answered? event output.reply).toList } := by
  unfold deal
  rw [hserve]

/-- Nothing is written without a reply. -/
theorem deal_silent {now : Nat} {event : Service.Event} {taken : Bytes} {s : Service} {world : σ}
    (hserve : x.service.serve control now event x.world = (⟨taken, none⟩, s, world)) :
    x.deal control now event = { x with service := s, world } := by
  rw [deal_of_serve hserve, answered?_none, Option.toList_none, List.append_nil]

/-- What the turn of a command connection does. If it has something to be read, it leaves
its seat. The front of what was read is carried out then, and the reply goes to the
connection. -/
inductive Attended (control : Control σ) (seat : Fin maxPeers) (id : Nat) (x : Loop σ) :
    Service.Readiness → Service.ReadOutcome → Loop σ → Prop where
  | carriedOut {ready : Service.Readiness} (data : Bytes) (text : List Char)
      (hclosing : ready.closing = true)
      (htext : text = Text.ofBytes (data.take Service.maxCommandLength)) :
      Attended control seat id x ready (.bytes data)
        { x with
          service := { x.service with
            commandSeats := x.service.commandSeats.remove seat
            handled := x.service.handled + 1 }
          world := (answer control text x.world).2
          answered := x.answered ++ [⟨id, text, (answer control text x.world).1⟩] }
  | dropped {ready : Service.Readiness} {read : Service.ReadOutcome}
      (hready : ready.closing = true ∨ ready.invalid = true)
      (hread : ready.closing = true → ∀ data, read ≠ .bytes data) :
      Attended control seat id x ready read
        { x with service := { x.service with
            commandSeats := x.service.commandSeats.remove seat } }
  | left {ready : Service.Readiness} {read : Service.ReadOutcome}
      (hclosing : ready.closing = false) (hvalid : ready.invalid = false) :
      Attended control seat id x ready read x

theorem attended {seat : Fin maxPeers}
    (hpresent : Service.Polled.Present x.service ⟨.command, seat, id⟩) (now : Nat)
    (ready : Service.Readiness) (read : Service.ReadOutcome) :
    Attended control seat id x ready read
      (x.deal control now (.command seat id ready read)) := by
  rcases hpresent.get? with ⟨p, hget⟩
  cases hclosing : ready.closing with
  | true =>
    by_cases hread : ∃ data, read = .bytes data
    · rcases hread with ⟨data, rfl⟩
      have hserve : x.service.serveCommand control seat id ready (.bytes data) x.world = _ :=
        Service.serveCommand_bytes hget hclosing data x.world
      rw [deal_of_serve (Service.serve_of_serveCommand hserve now)]
      exact .carriedOut data _ hclosing rfl
    · have hnothing : ∀ data, read ≠ .bytes data := fun data hdata => hread ⟨data, hdata⟩
      have hserve : x.service.serveCommand control seat id ready read x.world = _ :=
        Service.serveCommand_nothing hget hclosing hnothing x.world
      rw [deal_silent (Service.serve_of_serveCommand hserve now)]
      exact .dropped (.inl hclosing) fun _ => hnothing
  | false =>
    have hserve : x.service.serveCommand control seat id ready read x.world = _ :=
      Service.serveCommand_quiet hclosing read x.world
    rw [deal_silent (Service.serve_of_serveCommand hserve now)]
    cases hinvalid : ready.invalid with
    | true =>
      apply Attended.dropped (.inr hinvalid)
      intro htrue
      rw [hclosing] at htrue
      cases htrue
    | false => exact .left hclosing hinvalid

/-- The frame connections and what is being sent to them stay as they are. -/
theorem Attended.frameSeats {seat : Fin maxPeers} {ready : Service.Readiness}
    {read : Service.ReadOutcome} (h : Attended control seat id x ready read y) :
    y.service.frameSeats = x.service.frameSeats := by
  cases h with
  | carriedOut data text hclosing htext => rfl
  | dropped hready hread => rfl
  | left hclosing hvalid => rfl

/-- A command connection that had something to be read has left its seat. -/
theorem Attended.gone {seat : Fin maxPeers} {ready : Service.Readiness}
    {read : Service.ReadOutcome} (h : Attended control seat id x ready read y)
    (hclosing : ready.closing = true) (hs : x.service.Seated)
    (hpresent : Service.Polled.Present x.service ⟨.command, seat, id⟩) :
    Service.Gone id y.service := by
  rcases hpresent with ⟨p, hp, hid⟩
  have hempty := Seats.get_remove_self x.service.commandSeats seat
  have hsame : p.id = id := hid
  rw [← hsame]
  cases h with
  | carriedOut data text _ htext =>
    exact .of_vacated hs hp (.removeCommand x.service seat _) hempty
  | dropped hready hread =>
    exact .of_vacated hs hp (.removeCommand x.service seat _) hempty
  | left hopen hvalid =>
    rw [hclosing] at hopen
    cases hopen

/-- The turn of a listener or of a frame connection carries out no command. -/
theorem deal_other {now : Nat} {event : Service.Event}
    (hother : ∀ seat id ready read, event ≠ .command seat id ready read) :
    (x.deal control now event).answered = x.answered ∧
      (x.deal control now event).world = x.world ∧
      (x.deal control now event).service.handled = x.service.handled := by
  cases event with
  | listener role outcomes =>
    rw [deal_silent rfl]
    have haccepted := x.service.accept_accepted role now outcomes
    exact ⟨rfl, rfl, Service.handled_accept haccepted⟩
  | frame seat id ready read writes =>
    rw [deal_silent rfl]
    exact ⟨rfl, rfl, x.service.handled_serveFrame seat id ready read writes⟩
  | command seat id ready read => exact absurd rfl (hother seat id ready read)

/-! ## Rounds -/

/-- Every reply is one to a command that was answered. -/
theorem map_reply_answered? (control : Control σ) (now : Nat) (event : Service.Event)
    (s : Service) (world : σ) :
    (answered? event (s.serve control now event world).1.reply).map Answered.reply =
      (s.serve control now event world).1.reply := by
  cases event with
  | listener role outcomes => rfl
  | frame seat id ready read writes => rfl
  | command seat id ready read =>
    show (answered? _ (s.serveCommand control seat id ready read world).1).map _ =
      (s.serveCommand control seat id ready read world).1
    unfold Service.serveCommand Service.handleCommand
    split
    · split
      · rw [answered?_none]
        rfl
      · cases read <;> rfl
    · split <;> rw [answered?_none] <;> rfl

/-- One turn of a round, with the replies so far. -/
def turn (control : Control σ) (now : Nat) (sofar : List Reply × Service × σ)
    (event : Service.Event) : List Reply × Service × σ :=
  let served := sofar.2.1.serve control now event sofar.2.2
  (sofar.1 ++ served.1.reply.toList, served.2)

/-- A round is its turns one after the other, and a sweep. -/
theorem round_eq (control : Control σ) (now : Nat) (events : List Service.Event) (s : Service)
    (world : σ) :
    s.round control now events world =
      let last := events.foldl (turn control now) ([], s, world)
      (last.1,
        { last.2.1 with frameSeats := last.2.1.frameSeats.dropStalled last.2.1.writeTimeout now },
        last.2.2) := by
  rfl

/-- The loop takes the same turns. -/
theorem run_turns (control : Control σ) (now : Nat) (events : List Service.Event) {x : Loop σ}
    (hstage : x.stage = .serving (events.map fun event => (now, event))) :
    let y := x.run control (List.replicate events.length .serve)
    y.stage = .serving [] ∧
      events.foldl (turn control now) (x.answered.map Answered.reply, x.service, x.world) =
        (y.answered.map Answered.reply, y.service, y.world) := by
  induction events generalizing x with
  | nil => exact ⟨hstage, rfl⟩
  | cons event later ih =>
    let next : Loop σ :=
      { x.deal control now event with
        stage := .serving (later.map fun event => (now, event)) }
    have hmove : x.move control .serve = some next := by
      unfold move
      rw [hstage]
      rfl
    have hrun : x.run control (List.replicate (event :: later).length .serve) =
        next.run control (List.replicate later.length .serve) := by
      show ((x.move control .serve).getD x).run control _ = _
      rw [hmove]
      rfl
    have hreplies : next.answered.map Answered.reply =
        x.answered.map Answered.reply ++
          (x.service.serve control now event x.world).1.reply.toList := by
      show (x.answered ++
        (answered? event (x.service.serve control now event x.world).1.reply).toList).map _ = _
      rw [List.map_append, ← Option.toList_map, map_reply_answered?]
    have hfirst : turn control now (x.answered.map Answered.reply, x.service, x.world) event =
        (next.answered.map Answered.reply, next.service, next.world) := by
      rw [hreplies]
      rfl
    rw [hrun, List.foldl_cons, hfirst]
    exact ih rfl

/-- Where everything that is ready is dealt with at one time, the loop does what a round
does. -/
theorem round_eq_run (control : Control σ) (now : Nat) (events : List Service.Event)
    (hstage : x.stage = .serving (events.map fun event => (now, event)))
    (hanswered : x.answered = []) :
    let y := x.run control (List.replicate events.length .serve ++ [.sweep now])
    x.service.round control now events x.world =
      (y.answered.map Answered.reply, y.service, y.world) := by
  intro y
  let z := x.run control (List.replicate events.length .serve)
  rcases run_turns control now events hstage with ⟨hserved, hturns⟩
  have hy : y = { z with
      service := { z.service with
        frameSeats := z.service.frameSeats.dropStalled z.service.writeTimeout now }
      stage := .looking } := by
    show x.run control (_ ++ [Move.sweep now]) = _
    unfold run
    rw [List.foldl_append]
    show (z.move control (.sweep now)).getD z = _
    unfold move
    rw [hserved]
    rfl
  rw [hanswered] at hturns
  change events.foldl (turn control now) ([], x.service, x.world) =
    (z.answered.map Answered.reply, z.service, z.world) at hturns
  rw [hy, round_eq, hturns]

/-! ## Books -/

/-- Somebody who is gone stays away. -/
theorem Moved.gone (hmoved : Moved control x m y) (h : x.Orderly)
    (hgone : Service.Gone id x.service) : Service.Gone id y.service := by
  cases hmoved with
  | look now newest hstage => exact hgone.thinned (.tick x.service now newest)
  | finish hstage => exact hgone.thinned (.close x.service)
  | poll now sockets hstage => exact hgone
  | breakOff hstage => exact hgone.thinned (.close x.service)
  | serve now event later hstage =>
    have hdealt : Service.Dealt now event x.service (x.deal control now event).service :=
      h.dealt hstage
    exact hgone.dealt hdealt
  | sweep now hstage => exact hgone.thinned (.dropStalled x.service now)

/-- A command connection that has its turn is in its seat. -/
theorem Orderly.present (h : x.Orderly) {now : Nat} {seat : Fin maxPeers}
    {ready : Service.Readiness} {read : Service.ReadOutcome} {later : List (Nat × Service.Event)}
    (hstage : x.stage = .serving ((now, .command seat id ready read) :: later)) :
    Service.Polled.Present x.service ⟨.command, seat, id⟩ := by
  have hawaited := h.awaited
  rw [hstage] at hawaited
  exact hawaited.first rfl

theorem Orderly.gone_run (h : x.Orderly) (hgone : Service.Gone id x.service)
    (moves : List Move) : Service.Gone id (x.run control moves).service := by
  have hboth : (x.run control moves).Orderly ∧ Service.Gone id (x.run control moves).service := by
    apply run_keeps _ moves (P := fun x => x.Orderly ∧ Service.Gone id x.service)
    · exact ⟨h, hgone⟩
    · intro x m y hx hmoved
      exact ⟨hx.1.moved hmoved, hmoved.gone hx.1 hx.2⟩
  exact hboth.2

/-- What is known of the commands that were answered since the loop began in a world:
carrying them out again gives the same replies and the world as it is now, they are those
that were counted, and the connections that sent them are all different and gone. -/
structure Books (control : Control σ) (world : σ) (x : Loop σ) : Prop where
  replayed : replay control (x.answered.map Answered.text) world =
    (x.answered.map Answered.reply, x.world)
  handled : x.service.handled = x.answered.length
  once : (x.answered.map Answered.id).Nodup
  gone : ∀ a ∈ x.answered, Service.Gone a.id x.service

namespace Books

variable {world : σ}

theorem new (config : ServerConfig) (world : σ) : Books control world (.new config world) := by
  constructor
  · rfl
  · rfl
  · exact .nil
  · intro a ha
    cases ha

/-- Nothing was answered. -/
theorem same (h : Books control world x) (hanswered : y.answered = x.answered)
    (hworld : y.world = x.world) (hhandled : y.service.handled = x.service.handled)
    (hgone : ∀ id, Service.Gone id x.service → Service.Gone id y.service) :
    Books control world y := by
  constructor
  · rw [hanswered, hworld]
    exact h.replayed
  · rw [hanswered, hhandled]
    exact h.handled
  · rw [hanswered]
    exact h.once
  · rw [hanswered]
    intro a ha
    exact hgone a.id (h.gone a ha)

/-- A command connection has its turn. -/
theorem attended (h : Books control world x) {seat : Fin maxPeers} {ready : Service.Readiness}
    {read : Service.ReadOutcome} (hturn : Attended control seat id x ready read y)
    (hs : x.service.Seated) (hpresent : Service.Polled.Present x.service ⟨.command, seat, id⟩)
    (hgone : ∀ other, Service.Gone other x.service → Service.Gone other y.service) :
    Books control world y := by
  have hleft := hturn.gone
  cases hturn with
  | carriedOut data text hclosing htext =>
    constructor
    · rw [List.map_append, List.map_append, List.map_singleton, List.map_singleton, replay_snoc,
        h.replayed]
    · rw [List.length_append, ← h.handled]
      rfl
    · rw [List.map_append, List.map_singleton]
      apply List.nodup_append.mpr
      refine ⟨h.once, List.pairwise_singleton _ id, ?_⟩
      -- the connection is in its seat, so it has not been answered
      intro i hi j hj hsame
      rcases List.mem_map.mp hi with ⟨a, ha, hid⟩
      rcases hpresent with ⟨p, hp, hpid⟩
      have hnowhere := (h.gone a ha).nowhere .command seat p hp
      rw [List.mem_singleton] at hj
      apply hnowhere
      rw [hpid, hid, hsame, hj]
    · intro a ha
      rcases List.mem_append.mp ha with hold | hnew
      · exact hgone a.id (h.gone a hold)
      · rw [List.mem_singleton.mp hnew]
        exact hleft hclosing hs hpresent
  | dropped hready hread => exact h.same rfl rfl rfl hgone
  | left hclosing hvalid => exact h

theorem moved (h : Books control world x) (ho : x.Orderly) (hmoved : Moved control x m y) :
    Books control world y := by
  have hgone : ∀ id, Service.Gone id x.service → Service.Gone id y.service := by
    intro id hgone
    exact hmoved.gone ho hgone
  cases hmoved with
  | look now newest hstage => exact h.same rfl rfl (x.service.handled_tick now newest) hgone
  | finish hstage => exact h.same rfl rfl rfl hgone
  | poll now sockets hstage => exact h.same rfl rfl rfl hgone
  | breakOff hstage => exact h.same rfl rfl rfl hgone
  | serve now event later hstage =>
    by_cases hcommand : ∃ seat id ready read, event = .command seat id ready read
    · rcases hcommand with ⟨seat, id, ready, read, rfl⟩
      have hpresent := ho.present hstage
      have hturn : Attended control seat id x ready read
          (x.deal control now (.command seat id ready read)) :=
        Loop.attended hpresent now ready read
      have hbooks := h.attended hturn ho.seated hpresent hgone
      exact hbooks.same rfl rfl rfl fun _ hsame => hsame
    · have hother : ∀ seat id ready read, event ≠ .command seat id ready read := by
        intro seat id ready read hevent
        exact hcommand ⟨seat, id, ready, read, hevent⟩
      rcases deal_other hother with ⟨hanswered, hworld, hhandled⟩
      exact h.same hanswered hworld hhandled hgone
  | sweep now hstage => exact h.same rfl rfl rfl hgone

theorem run (config : ServerConfig) (world : σ) (moves : List Move) :
    Books control world ((Loop.new config world).run control moves) := by
  have hboth : ((Loop.new config world).run control moves).Orderly ∧
      Books control world ((Loop.new config world).run control moves) := by
    apply run_keeps _ moves (P := fun x => x.Orderly ∧ Books control world x)
    · exact ⟨.new config world, .new config world⟩
    · intro x m y hx hmoved
      exact ⟨hx.1.moved hmoved, hx.2.moved hx.1 hmoved⟩
  exact hboth.2

end Books

/-! ## Once -/

/-- No connection is answered twice, and the commands that were answered were carried out
one after the other; they are those that were counted. The turn of a command connection
does with it what `Attended` says, with the frame connections as they were. If there was
something to be read, the connection is gone then for all that follows. Other turns carry
out nothing. -/
theorem commands_served_once (control : Control σ) (config : ServerConfig) (world : σ)
    (moves : List Move) :
    let x := (Loop.new config world).run control moves
    (x.answered.map Answered.id).Nodup ∧
      replay control (x.answered.map Answered.text) world =
        (x.answered.map Answered.reply, x.world) ∧
      x.service.handled = x.answered.length ∧
      (∀ now seat id ready read later,
        x.stage = .serving ((now, .command seat id ready read) :: later) →
        Service.Polled.Present x.service ⟨.command, seat, id⟩ ∧
          Attended control seat id x ready read
            (x.deal control now (.command seat id ready read)) ∧
          (x.deal control now (.command seat id ready read)).service.frameSeats =
            x.service.frameSeats ∧
          (ready.closing = true → ∀ rest : List Move,
            Service.Gone id (x.run control (.serve :: rest)).service)) ∧
      ∀ now event later, x.stage = .serving ((now, event) :: later) →
        (∀ seat id ready read, event ≠ .command seat id ready read) →
        (x.deal control now event).answered = x.answered ∧
          (x.deal control now event).world = x.world := by
  intro x
  have horderly : x.Orderly := .run config world moves
  have hbooks : Books control world x := .run config world moves
  refine ⟨hbooks.once, hbooks.replayed, hbooks.handled, ?_, ?_⟩
  · intro now seat id ready read later hstage
    have hpresent := horderly.present hstage
    have hturn : Attended control seat id x ready read
        (x.deal control now (.command seat id ready read)) := attended hpresent now ready read
    refine ⟨hpresent, hturn, hturn.frameSeats, ?_⟩
    intro hclosing rest
    have hmove : x.move control .serve = some
        { x.deal control now (.command seat id ready read) with stage := .serving later } := by
      unfold move
      rw [hstage]
    show Service.Gone id (((x.move control .serve).getD x).run control rest).service
    rw [hmove]
    apply (horderly.moved (moved hmove)).gone_run
    exact hturn.gone hclosing horderly.seated hpresent
  · intro now event later hstage hother
    rcases deal_other hother with ⟨hanswered, hworld, -⟩
    exact ⟨hanswered, hworld⟩

/-- Two command connections come; one sends a command and the other one hangs up. A
third one has the seat of the first one and sends a command, too. -/
def threeCommandConnections : List Move :=
  let join : List Service.AcceptOutcome → Service.Sockets := fun outcomes =>
    ⟨fun role => if role = .command then some (0, outcomes) else none, fun _ _ => none⟩
  let send : String → Service.Sockets := fun text =>
    ⟨fun _ => none, fun role seat =>
      if role = .command then
        if seat.val = 0 then
          some ⟨0, ⟨true, false, false, false, false⟩, .bytes text.toUTF8.toList, []⟩
        else some ⟨0, ⟨false, true, false, false, false⟩, .closed, []⟩
      else none⟩
  [.look 0 none, .poll 0 (join [.connection true, .connection true]), .serve, .sweep 0,
    .look 0 none, .poll 0 (send "EXIT"), .serve, .serve, .sweep 0,
    .look 0 none, .poll 0 (join [.connection true]), .serve, .sweep 0,
    .look 0 none, .poll 0 (send "GAIN=x")]

theorem served_once_in_the_same_seat :
    let control := ScriptedControl.control []
    let x := (Loop.new {} []).run control threeCommandConnections
    let seat : Fin maxPeers := ⟨0, by decide⟩
    let ready : Service.Readiness := ⟨true, false, false, false, false⟩
    let event : Service.Event := .command seat 2 ready (.bytes "GAIN=x".toUTF8.toList)
    x.stage = .serving [(0, event)] ∧ ready.closing = true ∧
      (∀ rest : List Move, Service.Gone 2 (x.run control (.serve :: rest)).service) ∧
      (x.deal control 0 event).answered =
        [⟨0, "EXIT".toList, .ack "EXIT".toList⟩,
          ⟨2, "GAIN=x".toList, .err "Invalid gain value."⟩] ∧
      (x.deal control 0 event).world = ["exit"] := by
  intro control x seat ready event
  have hstage : x.stage = .serving [(0, event)] := by decide +kernel
  rcases commands_served_once control {} [] threeCommandConnections with ⟨-, -, -, hturn, -⟩
  rcases hturn 0 seat 2 ready (.bytes "GAIN=x".toUTF8.toList) [] hstage with ⟨-, -, -, hgone⟩
  exact ⟨hstage, rfl, hgone rfl, by decide +kernel, by decide +kernel⟩

end Loop

end FrameServer
