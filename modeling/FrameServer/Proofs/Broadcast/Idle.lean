import FrameServer.Proofs.Broadcast.Isolation

/-!
# FrameServer.Proofs.Broadcast.Idle — how long the loop waits

The loop waits until the next tick is due, but at most for the poll interval. A tick is
only made while somebody is connected, so once the last frame connection has gone, the
time of the last tick stands still and the wait becomes shorter and shorter. From the
moment at which a tick is due the loop does not wait at all, round after round, until
somebody connects.

1. **Clocks**: the part of a service that waiting depends on, and what leaves it alone.
2. **Looks** of a run, and the ticks among them.
3. **Waits**: when the timeout is positive, and why it does not become so again.
-/

namespace FrameServer

namespace Service

/-! ## Clocks -/

/-- What waiting depends on. -/
structure Clock where
  publishInterval : Nat
  pollInterval : Nat
  lastTick : Option Nat
deriving DecidableEq, Repr

def clock (s : Service) : Clock := ⟨s.publishInterval, s.pollInterval, s.lastTick⟩

/-- A look at the top of the loop, and whether it found a frame connection. -/
structure Look where
  now : Nat
  connected : Bool
deriving DecidableEq, Repr

/-- A look is a tick if it found somebody and the interval since the last tick, if any,
has passed. -/
def tickAfter (interval : Nat) (last : Option Nat) (l : Look) : Option Nat :=
  if l.connected && last.all (interval ≤ l.now - ·) then some l.now else last

/-- The time of the last tick among looks. -/
def lastTickOf (interval : Nat) (looks : List Look) : Option Nat :=
  looks.foldl (tickAfter interval) none

/-- The clock after looks. -/
def Clock.after (c : Clock) (looks : List Look) : Clock :=
  { c with lastTick := looks.foldl (tickAfter c.publishInterval) c.lastTick }

variable {s s' : Service}

@[simp] theorem clock_publish (s : Service) (now : Nat) (frame : Frame) :
    (s.publish now frame).clock = s.clock := by
  unfold publish
  split
  · rfl
  · rfl

/-- A look at the top of the loop moves the clock as it says. -/
theorem clock_tick (s : Service) (now : Nat) (newest : Option Frame) :
    (s.tick now newest).clock = s.clock.after [⟨now, !s.frameSeats.isEmpty⟩] := by
  have hdue : s.isDue now = s.lastTick.all (s.publishInterval ≤ now - ·) := by
    unfold isDue
    cases s.lastTick with
    | none => rfl
    | some t => rfl
  unfold tick
  rw [hdue, Bool.and_comm]
  by_cases hticks :
      (!s.frameSeats.isEmpty && s.lastTick.all (s.publishInterval ≤ now - ·)) = true
  · have hafter : s.clock.after [⟨now, !s.frameSeats.isEmpty⟩] =
        { s.clock with lastTick := some now } := by
      simp [Clock.after, clock, tickAfter, hticks]
    rw [hafter, if_pos hticks]
    cases newest with
    | none => rfl
    | some frame => exact clock_publish _ now frame
  · simp [Clock.after, clock, tickAfter, hticks]

theorem clock_accepted {role : Role} {now : Nat} {outcomes : List AcceptOutcome}
    (h : Accepted role now outcomes s s') : s'.clock = s.clock := by
  induction h with
  | done => rfl
  | connection hfirst hlater ih =>
    rw [ih]
    cases hfirst with
    | rejected hfull => rfl
    | unusable hroom husable => rfl
    | seated seat husable hfree hlowest => cases role <;> rfl
  | interrupted hlater ih => exact ih
  | failed => rfl

@[simp] theorem clock_discard (s : Service) (seat : Fin maxPeers) (id : Nat)
    (read : ReadOutcome) : (s.discard seat id read).clock = s.clock := by
  unfold discard
  split <;> rfl

@[simp] theorem clock_send (s : Service) (seat : Fin maxPeers) (id : Nat)
    (writes : List (Nat × Peer.WriteOutcome)) : (s.send seat id writes).2.clock = s.clock := by
  unfold send
  split
  · rfl
  · dsimp only
    split <;> rfl

theorem clock_serveFrame (s : Service) (seat : Fin maxPeers) (id : Nat) (ready : Readiness)
    (read : ReadOutcome) (writes : List (Nat × Peer.WriteOutcome)) :
    (s.serveFrame seat id ready read writes).2.clock = s.clock := by
  have hfirst : (if ready.closing then s.discard seat id read else s).clock = s.clock := by
    split <;> simp
  unfold serveFrame
  dsimp only
  split
  · exact hfirst
  · split
    · simpa using hfirst
    · exact hfirst

theorem clock_serveCommand {σ : Type} (control : Control σ) (s : Service) (seat : Fin maxPeers)
    (id : Nat) (ready : Readiness) (read : ReadOutcome) (world : σ) :
    (s.serveCommand control seat id ready read world).2.1.clock = s.clock := by
  unfold serveCommand
  split
  · unfold handleCommand
    split
    · rfl
    · dsimp only
      split <;> rfl
  · split <;> rfl

/-- Only a look moves the clock. -/
theorem clock_serve {σ : Type} (control : Control σ) (now : Nat) (event : Event) (s : Service)
    (world : σ) : (s.serve control now event world).2.1.clock = s.clock := by
  cases event with
  | listener role outcomes => exact clock_accepted (s.accept_accepted role now outcomes)
  | frame seat id ready read writes => exact s.clock_serveFrame seat id ready read writes
  | command seat id ready read => exact clock_serveCommand control s seat id ready read world

/-- The timeout is positive exactly as long as the next tick is not due. -/
theorem timeout_pos_iff (hpoll : 0 < s.pollInterval) (now : Nat) :
    0 < s.timeout now ↔
      s.lastTick = none ∨ ∃ t, s.lastTick = some t ∧ now - t < s.publishInterval := by
  unfold timeout
  cases hlast : s.lastTick with
  | none => simp [hpoll]
  | some t =>
    simp only [reduceCtorEq, false_or, Option.some.injEq, exists_eq_left']
    omega

/-- A poll waits no longer than the timeout, and not at all for less than a millisecond. -/
theorem pollTimeout_le (s : Service) (now : Nat) :
    s.pollTimeout now * 1000000 ≤ s.timeout now ∧
      (s.pollTimeout now = 0 ↔ s.timeout now < 1000000) := by
  unfold pollTimeout maxPollTimeout
  omega

theorem timeout_of_clock (hclock : s'.clock = s.clock) (now : Nat) :
    s'.timeout now = s.timeout now := by
  simp only [clock, Clock.mk.injEq] at hclock
  rcases hclock with ⟨hpublish, hpoll, hlast⟩
  simp only [timeout, hpublish, hpoll, hlast]

/-- The wait gets no longer while time passes. -/
theorem timeout_le (s : Service) {now later : Nat} (hlater : now ≤ later) :
    s.timeout later ≤ s.timeout now := by
  unfold timeout
  split
  · simp
  · omega

/-- Looks that find nobody leave the clock as it is. -/
theorem Clock.after_unattended (c : Clock) {looks : List Look}
    (hnobody : ∀ l ∈ looks, l.connected = false) : c.after looks = c := by
  have hlast : looks.foldl (tickAfter c.publishInterval) c.lastTick = c.lastTick := by
    induction looks with
    | nil => rfl
    | cons l later ih =>
      have hfirst : tickAfter c.publishInterval c.lastTick l = c.lastTick := by
        simp [tickAfter, hnobody l]
      rw [List.foldl_cons, hfirst]
      apply ih
      intro l' hl'
      exact hnobody l' (List.mem_cons_of_mem l hl')
  rw [after, hlast]

/-- The first look that finds somebody is a tick, and a tick is never forgotten. -/
theorem isSome_foldl_tickAfter (interval : Nat) (looks : List Look) (last : Option Nat) :
    (looks.foldl (tickAfter interval) last).isSome = (last.isSome || looks.any (·.connected)) := by
  induction looks generalizing last with
  | nil => simp
  | cons l later ih =>
    have hfirst : (tickAfter interval last l).isSome = (last.isSome || l.connected) := by
      unfold tickAfter
      cases last with
      | none => cases hl : l.connected <;> simp
      | some t => split <;> simp
    rw [List.foldl_cons, ih, hfirst, List.any_cons, Bool.or_assoc]

theorem lastTickOf_eq_none_iff (interval : Nat) (looks : List Look) :
    lastTickOf interval looks = none ↔ ∀ l ∈ looks, l.connected = false := by
  have hsome := isSome_foldl_tickAfter interval looks none
  rw [lastTickOf, ← Option.not_isSome_iff_eq_none, hsome]
  simp

theorem Clock.after_append (c : Clock) (looks later : List Look) :
    c.after (looks ++ later) = (c.after looks).after later := by
  simp [after, List.foldl_append]

end Service

namespace Loop

open Service (Look lastTickOf)

variable {σ : Type} (control : Control σ) {x y : Loop σ} {m : Move}

/-! ## Looks -/

/-- The look that a move takes. -/
def Move.look? (m : Move) (x : Loop σ) : Option Look :=
  match m, x.stage with
  | .look now _, .looking => some ⟨now, !x.service.frameSeats.isEmpty⟩
  | _, _ => none

/-- The looks of a run. -/
def looks (x : Loop σ) : List Move → List Look
  | [] => []
  | m :: later => (m.look? x).toList ++ looks ((x.move control m).getD x) later

/-- A move that is no look leaves the clock as it is. -/
theorem Moved.clock {control : Control σ} (hmoved : Moved control x m y) :
    y.service.clock = x.service.clock.after (m.look? x).toList := by
  cases hmoved with
  | look now newest hstage =>
    simp only [Move.look?, hstage, Option.toList_some]
    exact x.service.clock_tick now newest
  | finish hstage => rfl
  | poll now sockets hstage => rfl
  | breakOff hstage => rfl
  | serve now event later hstage => exact Service.clock_serve control now event x.service x.world
  | sweep now hstage => rfl

/-- A look that does not happen is none. -/
theorem look?_of_not_moved {control : Control σ} (hmove : x.move control m = none) :
    m.look? x = none := by
  unfold Move.look?
  split
  · next now newest hstage => simp [move, hstage] at hmove
  · rfl

/-- The clock of a service only depends on the looks of its loop. -/
theorem clock_run (moves : List Move) (x : Loop σ) :
    (x.run control moves).service.clock = x.service.clock.after (x.looks control moves) := by
  induction moves generalizing x with
  | nil => rfl
  | cons m later ih =>
    have hmove : ((x.move control m).getD x).service.clock =
        x.service.clock.after (m.look? x).toList := by
      cases hmove : x.move control m with
      | none =>
        rw [look?_of_not_moved hmove]
        rfl
      | some y => exact (moved hmove).clock
    show (run control ((x.move control m).getD x) later).service.clock = _
    rw [ih, hmove, looks, Service.Clock.after_append]

/-! ## Waits -/

/-- At any wait of a loop that starts with nobody ever connected: the timeout is positive
exactly if no look has found a frame connection yet or the last tick is less than the
publish interval ago. Once it is not, it stays so as long as no look finds anybody: then
the loop goes round without waiting. A poll is given no more than the timeout, and
nothing if that is less than a millisecond. -/
theorem timeout_pos_iff_recent (x : Loop σ) (hnew : x.service.lastTick = none)
    (hpoll : 0 < x.service.pollInterval) (moves : List Move) (now : Nat) :
    let y := x.run control moves
    let lastTick := lastTickOf x.service.publishInterval (x.looks control moves)
    (0 < y.service.timeout now ↔ (∀ l ∈ x.looks control moves, l.connected = false) ∨
        ∃ t, lastTick = some t ∧ now - t < x.service.publishInterval) ∧
      (y.service.timeout now = 0 → ∀ further later,
        (∀ l ∈ y.looks control further, l.connected = false) → now ≤ later →
          (y.run control further).service.timeout later = 0) ∧
      (y.stage = .polling → ∀ sockets, ∃ wait,
        (y.run control [.poll now sockets]).waits = y.waits ++ [wait] ∧
          wait * 1000000 ≤ y.service.timeout now ∧
          (wait = 0 ↔ y.service.timeout now < 1000000)) := by
  intro y lastTick
  have hclock : y.service.clock = x.service.clock.after (x.looks control moves) :=
    clock_run control moves x
  have hinterval : y.service.publishInterval = x.service.publishInterval :=
    congrArg Service.Clock.publishInterval hclock
  have hypoll : y.service.pollInterval = x.service.pollInterval :=
    congrArg Service.Clock.pollInterval hclock
  have hlast : y.service.lastTick = lastTick := by
    have hfold := congrArg Service.Clock.lastTick hclock
    simp only [Service.Clock.after, Service.clock, hnew] at hfold
    exact hfold
  rw [← hypoll] at hpoll
  refine ⟨?_, ?_, ?_⟩
  · rw [Service.timeout_pos_iff hpoll now, hlast, hinterval,
      Service.lastTickOf_eq_none_iff]
  · intro hzero further later hnobody hlater
    -- nobody moves the clock meanwhile, so the next tick is still due
    have hsame : (y.run control further).service.clock = y.service.clock := by
      rw [clock_run, Service.Clock.after_unattended _ hnobody]
    rw [Service.timeout_of_clock hsame later]
    have hle := y.service.timeout_le hlater
    omega
  · intro hstage sockets
    refine ⟨y.service.pollTimeout now, ?_, y.service.pollTimeout_le now⟩
    show ((y.move control (.poll now sockets)).getD y).waits = _
    unfold move
    rw [hstage]
    rfl

/-- A frame connection comes, a tick is made at time 1, and the connection goes. The loop
looks again at some time. -/
def departed (now : Nat) : List Move :=
  let listener : Role → Option (Nat × List Service.AcceptOutcome) := fun role =>
    if role = .frame then some (0, [.connection true]) else none
  let hangsUp : Role → Fin maxPeers → Option Service.Answer := fun _ _ =>
    some ⟨1, ⟨true, true, false, false, false⟩, .closed, []⟩
  [.look 0 none, .poll 0 ⟨listener, fun _ _ => none⟩, .serve, .sweep 0,
    .look 1 none, .poll 1 ⟨fun _ => none, hangsUp⟩, .serve, .sweep 1, .look now none]

/-- Six ticks in a second are due: a tenth of a second after the last one there is some
time left, and a sixth of a second after it there is none and will be none. Just before
that, the poll has no whole millisecond to wait. -/
theorem waits_until_due :
    let control := ScriptedControl.control []
    let x := Loop.new {} []
    x.service.lastTick = none ∧ 0 < x.service.pollInterval ∧
      lastTickOf x.service.publishInterval (x.looks control (departed 100000001)) = some 1 ∧
      0 < (x.run control (departed 100000001)).service.timeout 100000001 ∧
      (∀ further later, (∀ l ∈ (x.run control (departed 166666668)).looks control further,
          l.connected = false) → 166666668 ≤ later →
        ((x.run control (departed 166666668)).run control further).service.timeout later = 0) ∧
      (x.run control (departed 166000000)).service.timeout 166000000 = 666668 ∧
      ((x.run control (departed 166000000)).run control
        [.poll 166000000 ⟨fun _ => none, fun _ _ => none⟩]).waits = [83, 83, 0] := by
  intro control x
  have hpoll : 0 < x.service.pollInterval := by decide +kernel
  have hrecent : lastTickOf x.service.publishInterval (x.looks control (departed 100000001)) =
      some 1 := by decide +kernel
  have hzero : (x.run control (departed 166666668)).service.timeout 166666668 = 0 := by
    decide +kernel
  have hlittle : (x.run control (departed 166000000)).service.timeout 166000000 = 666668 := by
    decide +kernel
  refine ⟨rfl, hpoll, hrecent, ?_, ?_, hlittle, ?_⟩
  · have hwait := (timeout_pos_iff_recent control x rfl hpoll (departed 100000001)
      100000001).1
    rw [hwait, hrecent]
    exact .inr ⟨1, rfl, by decide +kernel⟩
  · have hspin := (timeout_pos_iff_recent control x rfl hpoll (departed 166666668)
      166666668).2.1
    exact hspin hzero
  · have hstage : (x.run control (departed 166000000)).stage = .polling := by decide +kernel
    have hwaits : (x.run control (departed 166000000)).waits = [83, 83] := by decide +kernel
    obtain ⟨wait, hnext, -, hnone⟩ :=
      (timeout_pos_iff_recent control x rfl hpoll (departed 166000000) 166000000).2.2 hstage
        ⟨fun _ => none, fun _ _ => none⟩
    rw [hnext, hwaits, hnone.mpr (by rw [hlittle]; decide)]
    rfl

/-- The last frame connection has gone, the next tick is due, and the loop polls without
waiting. -/
theorem not_always_waiting :
    let control := ScriptedControl.control []
    let x := Loop.new {} []
    0 < x.service.publishInterval ∧ 0 < x.service.pollInterval ∧
      ¬ ∀ moves now, (x.run control moves).stage = .polling →
        (x.run control moves).service.frameSeats.isEmpty = true →
        0 < (x.run control moves).service.timeout now := by
  intro control x
  refine ⟨by decide +kernel, by decide +kernel, ?_⟩
  intro hwaits
  have hstage : (x.run control (departed 166666668)).stage = .polling := by decide +kernel
  have hidle : (x.run control (departed 166666668)).service.frameSeats.isEmpty = true := by
    decide +kernel
  have hzero : (x.run control (departed 166666668)).service.timeout 166666668 = 0 := by
    decide +kernel
  have hpos := hwaits (departed 166666668) 166666668 hstage hidle
  omega

end Loop

end FrameServer
