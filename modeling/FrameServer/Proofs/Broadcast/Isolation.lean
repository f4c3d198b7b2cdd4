import FrameServer.Control.Scripted
import FrameServer.Proofs.Broadcast.Seating

/-!
# FrameServer.Proofs.Broadcast.Isolation — no connection is taken for another one

Seats are used again, and what is ready is dealt with one after the other, so the seat
of a connection may be free, or may have somebody else in it, by the time at which it is
that connection's turn. This never happens: no connection is polled twice, and nothing
but its own turn takes a connection out of its seat before the whole batch was dealt
with. So an event concerns the connection that was polled, even where the seat is freed
without a look at the number.

1. **Moves of the loop**, and what holds after any number of them.
2. **Polled connections** are apart from each other.
3. **Batches**: the connections whose turn is still to come are in their seats.
4. **The loop** keeps all of this.
5. **Isolation**
-/

namespace FrameServer

/-! ## Moves of the loop -/

namespace Loop

variable {σ : Type} {control : Control σ} {x y : Loop σ} {m : Move}

/-- The batch that is being dealt with. -/
def Stage.ready : Stage → List (Nat × Service.Event)
  | .serving ready => ready
  | .looking => []
  | .polling => []
  | .ended => []

/-- What a move does where it is enabled. -/
inductive Moved (control : Control σ) (x : Loop σ) : Move → Loop σ → Prop where
  | look (now : Nat) (newest : Option Frame) (hstage : x.stage = .looking) :
      Moved control x (.look now newest)
        { x with service := x.service.tick now newest, stage := .polling }
  | finish (hstage : x.stage = .looking) : Moved control x .finish x.close
  | poll (now : Nat) (sockets : Service.Sockets) (hstage : x.stage = .polling) :
      Moved control x (.poll now sockets)
        { x with
          stage := .serving (x.service.poll sockets)
          waits := x.waits ++ [x.service.pollTimeout now] }
  | breakOff (hstage : x.stage = .polling) : Moved control x .breakOff x.close
  | serve (now : Nat) (event : Service.Event) (later : List (Nat × Service.Event))
      (hstage : x.stage = .serving ((now, event) :: later)) :
      Moved control x .serve { x.deal control now event with stage := .serving later }
  | sweep (now : Nat) (hstage : x.stage = .serving []) :
      Moved control x (.sweep now)
        { x with
          service := { x.service with
            frameSeats := x.service.frameSeats.dropStalled x.service.writeTimeout now }
          stage := .looking }

theorem moved (hmove : x.move control m = some y) : Moved control x m y := by
  unfold move at hmove
  split at hmove
  · next now newest hstage =>
    cases hmove
    exact .look now newest hstage
  · next hstage =>
    cases hmove
    exact .finish hstage
  · next now sockets hstage =>
    cases hmove
    exact .poll now sockets hstage
  · next hstage =>
    cases hmove
    exact .breakOff hstage
  · next now event later hstage =>
    cases hmove
    exact .serve now event later hstage
  · next now hstage =>
    cases hmove
    exact .sweep now hstage
  · cases hmove

/-- What every move keeps is kept by a run. -/
theorem run_keeps {P : Loop σ → Prop}
    (hstep : ∀ (x : Loop σ) m y, P x → Moved control x m y → P y) (moves : List Move)
    (hx : P x) : P (x.run control moves) := by
  induction moves generalizing x with
  | nil => exact hx
  | cons m later ih =>
    apply ih
    show P ((x.move control m).getD x)
    cases hmove : x.move control m with
    | none => exact hx
    | some y => exact hstep x m y hx (moved hmove)

end Loop

namespace Service

variable {s s' : Service} {ready later : List (Nat × Event)}

/-! ## Polled connections -/

/-- The connection that an event is about. -/
def Event.polled? : Event → Option Polled
  | .listener _ _ => none
  | .frame seat id _ _ _ => some ⟨.frame, seat, id⟩
  | .command seat id _ _ => some ⟨.command, seat, id⟩

theorem Polled.polled?_event (answer : Answer) (c : Polled) :
    (c.event answer).polled? = some c := by
  rcases c with ⟨role, seat, id⟩
  cases role
  · rfl
  · rfl

/-- The socket of the connection turned out to be invalid. -/
def Event.invalid : Event → Bool
  | .listener _ _ => false
  | .frame _ _ ready _ _ => ready.invalid
  | .command _ _ ready _ => ready.invalid

/-- The connections that have their turn in a batch. -/
def turns (ready : List (Nat × Event)) : List Polled := ready.filterMap fun e => e.2.polled?

/-- A connection is still in the seat in which it was polled. -/
def Polled.Present (s : Service) (c : Polled) : Prop :=
  ∃ p, (s.seats c.role).get c.seat = some p ∧ p.id = c.id

/-- A connection that is in its seat is found there by its number. -/
theorem Polled.Present.get? {c : Polled} (h : c.Present s) :
    ∃ p, (s.seats c.role).get? c.seat c.id = some p := by
  rcases h with ⟨p, hp, hid⟩
  exact ⟨p, Option.filter_eq_some_iff.mpr ⟨hp, decide_eq_true hid⟩⟩

/-- Two connections sit in two different seats. -/
def Polled.Apart (c d : Polled) : Prop := (c.role, c.seat) ≠ (d.role, d.seat)

theorem present_of_mem_polled {role : Role} {c : Polled} (hc : c ∈ s.polled role) :
    c.Present s ∧ c.role = role := by
  rcases List.mem_filterMap.mp hc with ⟨seat, -, hseat⟩
  rcases Option.map_eq_some_iff.mp hseat with ⟨p, hp, hsame⟩
  rw [← hsame]
  exact ⟨⟨p, hp, rfl⟩, rfl⟩

theorem polled_apart (s : Service) (role : Role) : (s.polled role).Pairwise Polled.Apart := by
  apply List.pairwise_filterMap.mpr
  apply (List.pairwise_lt_finRange maxPeers).imp
  intro i j hlt c hc d hd hsame
  rcases Option.map_eq_some_iff.mp hc with ⟨p, -, rfl⟩
  rcases Option.map_eq_some_iff.mp hd with ⟨q, -, rfl⟩
  have hij : i = j := (Prod.mk.inj hsame).2
  rw [hij] at hlt
  exact absurd hlt (Nat.lt_irrefl j.val)

theorem turns_arrivals (sockets : Sockets) : turns sockets.arrivals = [] := by
  unfold turns
  rw [List.filterMap_eq_nil_iff]
  intro e he
  rcases List.mem_filterMap.mp he with ⟨role, -, hrole⟩
  rcases Option.map_eq_some_iff.mp hrole with ⟨arrival, -, rfl⟩
  rfl

/-- Frame connections have their turns before command connections, and none has two. -/
theorem turns_poll (sockets : Sockets) (s : Service) :
    (turns (s.poll sockets)).Sublist (s.polled .frame ++ s.polled .command) := by
  have happend : turns (s.poll sockets) = turns sockets.arrivals ++ turns _ :=
    List.filterMap_append
  rw [happend, turns_arrivals, List.nil_append]
  unfold turns
  rw [List.filterMap_filterMap]
  -- a connection that is ready stays as it was polled
  have hself : (fun c : Polled => ((sockets.client c.role c.seat).map fun answer =>
        (answer.now, c.event answer)).bind fun e => e.2.polled?) =
      Option.guard fun c => (sockets.client c.role c.seat).isSome := by
    funext c
    cases hclient : sockets.client c.role c.seat with
    | none => simp [Option.guard, hclient]
    | some answer => simp [Option.guard, hclient, Polled.polled?_event]
  rw [hself, List.filterMap_eq_filter]
  exact List.filter_sublist

/-! ## Batches -/

/-- The connections that have their turn later in a batch sit in their seats. -/
structure Awaited (ready : List (Nat × Event)) (s : Service) : Prop where
  present : ∀ c ∈ turns ready, c.Present s
  apart : (turns ready).Pairwise Polled.Apart

namespace Awaited

theorem nothing (s : Service) : Awaited [] s := by
  constructor
  · intro c hc
    cases hc
  · exact .nil

theorem poll (sockets : Sockets) (s : Service) : Awaited (s.poll sockets) s := by
  have hsub := turns_poll sockets s
  constructor
  · intro c hc
    rcases List.mem_append.mp (hsub.subset hc) with hframe | hcommand
    · exact (present_of_mem_polled hframe).1
    · exact (present_of_mem_polled hcommand).1
  · apply List.Pairwise.sublist hsub
    apply List.pairwise_append.mpr
    refine ⟨s.polled_apart .frame, s.polled_apart .command, ?_⟩
    intro c hc d hd hsame
    have hrole : c.role = d.role := (Prod.mk.inj hsame).1
    rw [(present_of_mem_polled hc).2, (present_of_mem_polled hd).2] at hrole
    cases hrole

/-- Those that are in their seats stay there while listeners have their turn. -/
theorem listener {now : Nat} {role : Role} {outcomes : List AcceptOutcome}
    (h : Awaited ((now, .listener role outcomes) :: later) s)
    (hkept : ∀ other (seat : Fin maxPeers) p, (s.seats other).get seat = some p →
      (s'.seats other).get seat = some p) : Awaited later s' := by
  constructor
  · intro c hc
    rcases h.present c hc with ⟨p, hp, hid⟩
    exact ⟨p, hkept c.role c.seat p hp, hid⟩
  · exact h.apart

/-- Those that are in their seats stay there while another one has its turn. -/
theorem turn {now : Nat} {event : Event} {c : Polled} (hevent : event.polled? = some c)
    (h : Awaited ((now, event) :: later) s) (honly : OnlySeat c.role c.seat s s') :
    Awaited later s' := by
  have hturns : turns ((now, event) :: later) = c :: turns later :=
    List.filterMap_cons_some hevent
  have hapart := h.apart
  rw [hturns] at hapart
  rcases List.pairwise_cons.mp hapart with ⟨hfirst, hrest⟩
  refine ⟨?_, hrest⟩
  intro d hd
  have hmem : d ∈ turns ((now, event) :: later) := by
    rw [hturns]
    exact List.mem_cons_of_mem c hd
  rcases h.present d hmem with ⟨p, hp, hid⟩
  refine ⟨p, ?_, hid⟩
  rw [honly.others d.role d.seat fun hsame => hfirst d hd hsame.symm]
  exact hp

/-- The connection whose turn it is sits in its seat. -/
theorem first {now : Nat} {event : Event} {c : Polled} (hevent : event.polled? = some c)
    (h : Awaited ((now, event) :: later) s) : c.Present s := by
  apply h.present
  have hturns : turns ((now, event) :: later) = c :: turns later :=
    List.filterMap_cons_some hevent
  rw [hturns]
  exact List.mem_cons_self

end Awaited

/-- What dealing with an event does. New connections leave those alone that there are;
a connection that has its turn is in its seat, and nothing happens to any other one. It
leaves its seat if its socket is invalid. -/
structure Dealt (now : Nat) (event : Event) (s s' : Service) : Prop where
  accepted : ∀ role outcomes, event = .listener role outcomes → Accepted role now outcomes s s'
  kept : ∀ role outcomes, event = .listener role outcomes →
    ∀ other (seat : Fin maxPeers) p, (s.seats other).get seat = some p →
      (s'.seats other).get seat = some p
  present : ∀ c, event.polled? = some c → c.Present s
  only : ∀ c, event.polled? = some c → OnlySeat c.role c.seat s s'
  freed : ∀ c, event.polled? = some c → event.invalid = true → (s'.seats c.role).get c.seat = none

/-- Each turn concerns the seat that was polled. -/
theorem serve_only {σ : Type} (control : Control σ) (now : Nat) {event : Event} {c : Polled}
    (hevent : event.polled? = some c) (s : Service) (world : σ) :
    OnlySeat c.role c.seat s (s.serve control now event world).2.1 := by
  cases event with
  | listener role outcomes => cases hevent
  | frame seat id ready read writes =>
    cases hevent
    exact .serveFrame s seat id ready read writes
  | command seat id ready read =>
    cases hevent
    exact .serveCommand control s seat id ready read world

theorem serve_freed {σ : Type} (control : Control σ) (now : Nat) {event : Event} {c : Polled}
    (hevent : event.polled? = some c) (hinvalid : event.invalid = true) (hpresent : c.Present s)
    (world : σ) : ((s.serve control now event world).2.1.seats c.role).get c.seat = none := by
  cases event with
  | listener role outcomes => cases hevent
  | frame seat id ready read writes =>
    cases hevent
    show (s.serveFrame seat id ready read writes).2.frameSeats.get seat = none
    unfold serveFrame
    have hready : ready.invalid = true := hinvalid
    dsimp only
    rw [if_pos hready]
    exact Seats.get_remove_self _ seat
  | command seat id ready read =>
    cases hevent
    have hready : ready.invalid = true := hinvalid
    rcases hpresent.get? with ⟨p, hget⟩
    have hcommand : s.commandSeats.get? seat id = some p := hget
    show (s.serveCommand control seat id ready read world).2.1.commandSeats.get seat = none
    unfold serveCommand handleCommand
    rw [hcommand, if_pos hready]
    -- its command may have been read first, and then it has left its seat already
    split
    · cases read
      all_goals exact Seats.get_remove_self _ seat
    · exact Seats.get_remove_self _ seat

theorem Awaited.dealt {σ : Type} (control : Control σ) {now : Nat} {event : Event}
    (h : Awaited ((now, event) :: later) s) (world : σ) :
    Dealt now event s (s.serve control now event world).2.1 := by
  constructor
  · rintro role outcomes rfl
    exact s.accept_accepted role now outcomes
  · rintro role outcomes rfl other seat p hp
    exact (s.accept_accepted role now outcomes).kept other seat hp
  · intro c hc
    exact h.first hc
  · intro c hc
    exact serve_only control now hc s world
  · intro c hc hinvalid
    exact serve_freed control now hc hinvalid (h.first hc) world

theorem Dealt.seated {now : Nat} {event : Event} (h : Dealt now event s s') (hs : s.Seated) :
    s'.Seated := by
  cases event with
  | listener role outcomes => exact (h.accepted role outcomes rfl).seated hs
  | frame seat id ready read writes => exact hs.thinned (h.only _ rfl).thinned
  | command seat id ready read => exact hs.thinned (h.only _ rfl).thinned

theorem Dealt.awaited {now : Nat} {event : Event} (h : Dealt now event s s')
    (hs : Awaited ((now, event) :: later) s) : Awaited later s' := by
  cases event with
  | listener role outcomes => exact hs.listener (h.kept role outcomes rfl)
  | frame seat id ready read writes => exact hs.turn rfl (h.only _ rfl)
  | command seat id ready read => exact hs.turn rfl (h.only _ rfl)

end Service

/-! ## The loop -/

namespace Loop

variable {σ : Type} {control : Control σ} {x y : Loop σ} {m : Move}

/-- The connections have numbers of their own, and those that are still to have their
turn are in their seats. -/
structure Orderly (x : Loop σ) : Prop where
  seated : x.service.Seated
  awaited : Service.Awaited x.stage.ready x.service

namespace Orderly

theorem new (config : ServerConfig) (world : σ) : (Loop.new config world).Orderly := by
  constructor
  · exact .new config
  · exact .nothing _

/-- What happens to the first one of a batch. -/
theorem dealt (h : x.Orderly) {now : Nat} {event : Service.Event}
    {later : List (Nat × Service.Event)} (hstage : x.stage = .serving ((now, event) :: later)) :
    Service.Dealt now event x.service (x.deal control now event).service := by
  have hawaited := h.awaited
  rw [hstage] at hawaited
  exact hawaited.dealt control x.world

theorem close (h : x.Orderly) : x.close.Orderly := by
  constructor
  · exact h.seated.thinned (.close x.service)
  · exact .nothing _

theorem moved (h : x.Orderly) (hmoved : Moved control x m y) : y.Orderly := by
  cases hmoved with
  | look now newest hstage =>
    constructor
    · exact h.seated.thinned (.tick x.service now newest)
    · exact .nothing _
  | finish hstage => exact h.close
  | poll now sockets hstage =>
    constructor
    · exact h.seated
    · exact .poll sockets x.service
  | breakOff hstage => exact h.close
  | serve now event later hstage =>
    have hdealt : Service.Dealt now event x.service (x.deal control now event).service :=
      h.dealt hstage
    have hawaited := h.awaited
    rw [hstage] at hawaited
    constructor
    · exact hdealt.seated h.seated
    · exact hdealt.awaited hawaited
  | sweep now hstage =>
    constructor
    · exact h.seated.thinned (.dropStalled x.service now)
    · exact .nothing _

theorem run (config : ServerConfig) (world : σ) (moves : List Move) :
    ((Loop.new config world).run control moves).Orderly :=
  run_keeps (fun _ _ _ h hmoved => h.moved hmoved) moves (new config world)

end Orderly

/-! ## Isolation -/

/-- At any time, no role has more than five connections, and all of them have numbers of
their own below the next one. A new connection is turned away exactly if every seat of
its role is taken, else it has the lowest free one, and those that are there stay as they
are. A connection that has its turn in a batch is the one that was polled, and nothing
else than this connection changes. -/
theorem connections_isolated (control : Control σ) (config : ServerConfig) (world : σ)
    (moves : List Move) :
    let x := (Loop.new config world).run control moves
    x.service.Seated ∧
      ∀ now event later, x.stage = .serving ((now, event) :: later) →
        Service.Dealt now event x.service (x.deal control now event).service := by
  intro x
  have h : x.Orderly := .run config world moves
  constructor
  · exact h.seated
  · intro now event later hstage
    exact h.dealt hstage

/-- Two frame connections come, the first one goes, and a third one has its seat when
the socket in it turns out to be invalid. -/
def seatUsedAgain : List Move :=
  let round : Service.Sockets → List Move := fun sockets =>
    [.look 0 none, .poll 0 sockets, .serve, .sweep 0]
  let join : List Service.AcceptOutcome → Service.Sockets := fun outcomes =>
    ⟨fun role => if role = .frame then some (0, outcomes) else none, fun _ _ => none⟩
  let ready : Service.Readiness → Service.Sockets := fun readiness =>
    ⟨fun _ => none, fun role seat =>
      if role = .frame then
        if seat.val = 0 then some ⟨0, readiness, .closed, []⟩ else none
      else none⟩
  round (join [.connection true, .connection true]) ++
    round (ready ⟨false, true, false, false, false⟩) ++
    round (join [.connection true]) ++
    [.look 0 none, .poll 0 (ready ⟨false, false, false, true, false⟩)]

theorem seat_freed_for_its_own_connection :
    let control := ScriptedControl.control []
    let x := (Loop.new {} []).run control seatUsedAgain
    let event : Service.Event :=
      .frame ⟨0, by decide⟩ 2 ⟨false, false, false, true, false⟩ .closed []
    x.stage = .serving [(0, event)] ∧
      Service.Dealt 0 event x.service (x.deal control 0 event).service ∧
      x.service.frameSeats.peers.map (·.id) = [2, 1] ∧
      (x.deal control 0 event).service.frameSeats.peers.map (·.id) = [1] := by
  intro control x event
  have hstage : x.stage = .serving [(0, event)] := by decide +kernel
  have hdealt := (connections_isolated control {} [] seatUsedAgain).2 0 event [] hstage
  exact ⟨hstage, hdealt, by decide +kernel, by decide +kernel⟩

end Loop

end FrameServer
