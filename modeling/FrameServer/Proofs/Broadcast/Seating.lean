import FrameServer.Broadcast.Loop
import FrameServer.Proofs.Broadcast.Ledger

/-!
# FrameServer.Proofs.Broadcast.Seating — who sits where

Every connection has a number of its own, and the numbers that were given so far are
those below the next one. A new connection takes the lowest free seat of its role and is
turned away exactly if there is none. What is done with a connection that is ready
concerns its own seat and no other.

1. **Seats**: full ones, and the lowest free one.
2. **Pending wires** of a connection.
3. **Seated services**: connections with numbers of their own.
4. **New connections**
5. **One seat**: what is done with the connection in it.
-/

namespace FrameServer

/-! ## Seats -/

namespace Seats

variable {seats : Seats}

theorem count_le (seats : Seats) : seats.count ≤ maxPeers := by
  have hle := List.length_filterMap_le id seats.toList
  rw [Vector.length_toList] at hle
  exact hle

/-- Everything in the row of seats sits in one of them. -/
theorem all_toList_iff (test : Option Peer → Bool) :
    seats.toList.all test = true ↔ ∀ seat : Fin maxPeers, test (seats.get seat) = true := by
  rw [List.all_eq_true]
  constructor
  · intro hall seat
    apply hall
    rw [Vector.mem_toList_iff]
    exact Vector.getElem_mem seat.isLt
  · intro hall place hplace
    rw [Vector.mem_toList_iff] at hplace
    rcases Vector.getElem_of_mem hplace with ⟨i, hi, hsame⟩
    rw [← hsame]
    exact hall ⟨i, hi⟩

theorem isFull_iff :
    seats.isFull = true ↔ ∀ seat : Fin maxPeers, (seats.get seat).isSome = true :=
  all_toList_iff Option.isSome

/-- The lowest free seat is free, and every one below it is taken. -/
theorem of_free? {seat : Fin maxPeers} (hfree : seats.free? = some seat) :
    seats.get seat = none ∧ ∀ below < seat, (seats.get below).isSome = true := by
  unfold free? at hfree
  rcases List.find?_eq_some_iff_append.mp hfree with ⟨hnone, before, behind, hrow, htaken⟩
  constructor
  · exact Option.isNone_iff_eq_none.mp hnone
  · intro below hlt
    have hordered := List.pairwise_lt_finRange maxPeers
    have hmem := List.mem_finRange below
    rw [hrow] at hordered hmem
    -- the seats behind the free one are higher
    rcases List.mem_append.mp hmem with hbefore | hrest
    · have hnot := htaken below hbefore
      rw [Bool.not_eq_true', Option.isNone_eq_false_iff] at hnot
      exact hnot
    · rcases List.mem_cons.mp hrest with hsame | hbehind
      · rw [hsame] at hlt
        exact absurd hlt (Nat.lt_irrefl seat.val)
      · have hgt := (List.pairwise_cons.mp (List.pairwise_append.mp hordered).2.1).1 below hbehind
        exact absurd (Nat.lt_trans hlt hgt) (Nat.lt_irrefl below.val)

/-- There is a free seat unless all are taken. -/
theorem exists_free (hroom : seats.isFull = false) : ∃ seat, seats.free? = some seat := by
  cases hfree : seats.free? with
  | some seat => exact ⟨seat, rfl⟩
  | none =>
    unfold free? at hfree
    rw [List.find?_eq_none] at hfree
    have hfull : seats.isFull = true := by
      rw [isFull_iff]
      intro seat
      have htaken := hfree seat (List.mem_finRange seat)
      rw [Option.isNone_iff_eq_none] at htaken
      exact Option.isSome_iff_ne_none.mpr htaken
    rw [hfull] at hroom
    cases hroom

end Seats

/-! ## Pending wires -/

namespace Peer

/-- A connection has a wire more to be sent after one was scheduled. -/
theorem of_mem_pending_arm {now : Nat} {wire w : Bytes} {p : Peer}
    (hw : w ∈ (p.arm now wire).pending) : w = wire ∨ w ∈ p.pending := by
  unfold arm at hw
  split at hw
  · next hout =>
    rcases List.mem_cons.mp hw with hfirst | hqueued
    · left
      exact hfirst
    · right
      rw [pending, hout]
      exact hqueued
  · next out hout =>
    split at hw
    · rcases List.mem_append.mp hw with hfirst | hqueued
      · right
        exact List.mem_append_left _ hfirst
      · left
        exact List.mem_singleton.mp hqueued
    · rcases List.mem_cons.mp hw with hfirst | hqueued
      · left
        exact hfirst
      · right
        exact List.mem_append_right _ hqueued

/-- Writing adds nothing to what is to be sent. -/
theorem pending_flush (writes : List (Nat × WriteOutcome)) (p : Peer) :
    (p.flush writes).peer.pending ⊆ p.pending := by
  unfold flush
  split
  · exact List.Subset.refl _
  · next out hout =>
    dsimp only
    split
    · -- the wire behind the finished one has moved up
      intro w hw
      apply List.mem_append_right
      cases hqueued : p.queued with
      | none =>
        rw [hqueued] at hw
        cases hw
      | some wire =>
        rw [hqueued] at hw
        exact hw
    · intro w hw
      rw [pending, hout]
      exact hw

end Peer

namespace Service

variable {s s' s'' : Service}

theorem seats_withSeats (s : Service) (seats : Seats) (role other : Role) :
    (s.withSeats seats role).seats other = if other = role then seats else s.seats other := by
  cases role <;> cases other <;> rfl

theorem nextId_withSeats (s : Service) (seats : Seats) (role : Role) :
    (s.withSeats seats role).nextId = s.nextId := by
  cases role <;> rfl

/-! ## Seated services -/

/-- Some connections may have left their seats, but nobody has come. -/
structure Thinned (s s' : Service) : Prop where
  stayed : ∀ role (seat : Fin maxPeers) p', (s'.seats role).get seat = some p' →
    ∃ p, (s.seats role).get seat = some p ∧ p.id = p'.id
  nextId : s'.nextId = s.nextId

namespace Thinned

theorem close (s : Service) : Thinned s s.close := by
  constructor
  · intro role seat p hp
    have hnone : (s.close.seats role).get seat = none := by
      cases role
      all_goals exact Vector.getElem_replicate seat.isLt
    rw [hnone] at hp
    cases hp
  · rfl

theorem tick (s : Service) (now : Nat) (newest : Option Frame) :
    Thinned s (s.tick now newest) := by
  have hstay : ∀ lastTick, Thinned s { s with lastTick } := by
    intro lastTick
    constructor
    · intro role seat p hp
      exact ⟨p, by cases role <;> exact hp, rfl⟩
    · rfl
  unfold Service.tick
  split
  · cases newest with
    | none => exact hstay _
    | some frame =>
      dsimp only
      unfold Service.publish
      split
      · exact hstay _
      · -- every frame connection stays in its seat, with one more wire
        refine ⟨?_, rfl⟩
        intro role seat p' hp'
        cases role with
        | command => exact ⟨p', hp', rfl⟩
        | frame =>
          have hget : ((s.frameSeats.get seat).map fun p => p.arm now (frame.writeOver [])) =
              some p' := by
            rw [← hp']
            exact (Seats.get_map _ s.frameSeats seat).symm
          rcases Option.map_eq_some_iff.mp hget with ⟨p, hp, hsame⟩
          refine ⟨p, hp, ?_⟩
          rw [← hsame, Peer.id_arm]
  · constructor
    · intro role seat p hp
      exact ⟨p, hp, rfl⟩
    · rfl

theorem dropStalled (s : Service) (now : Nat) :
    Thinned s { s with frameSeats := s.frameSeats.dropStalled s.writeTimeout now } := by
  refine ⟨?_, rfl⟩
  intro role seat p hp
  cases role with
  | command => exact ⟨p, hp, rfl⟩
  | frame =>
    have hget : ((s.frameSeats.get seat).filter fun p => !p.stalled s.writeTimeout now) =
        some p := by
      rw [← hp]
      exact (Seats.get_map _ s.frameSeats seat).symm
    exact ⟨p, (Option.filter_eq_some_iff.mp hget).1, rfl⟩

theorem turnedAway (s : Service) (rejected : Nat) : Thinned s { s with rejected } := by
  constructor
  · intro role seat p hp
    exact ⟨p, by cases role <;> exact hp, rfl⟩
  · rfl

end Thinned

/-- The numbers of the connections were all given, and no two connections have the same
one. -/
structure Seated (s : Service) : Prop where
  count_le : ∀ role, (s.seats role).count ≤ maxPeers
  below : ∀ role (seat : Fin maxPeers) p, (s.seats role).get seat = some p → p.id < s.nextId
  distinct : ∀ role other (i j : Fin maxPeers) p q, (s.seats role).get i = some p →
    (s.seats other).get j = some q → p.id = q.id → role = other ∧ i = j

namespace Seated

/-- Connections that stay in their seats keep their numbers. -/
theorem thinned (h : s.Seated) (hthin : Thinned s s') : s'.Seated := by
  constructor
  · intro role
    exact Seats.count_le _
  · intro role seat p' hp'
    rcases hthin.stayed role seat p' hp' with ⟨p, hp, hid⟩
    rw [hthin.nextId, ← hid]
    exact h.below role seat p hp
  · intro role other i j p' q' hp' hq' hsame
    rcases hthin.stayed role i p' hp' with ⟨p, hp, hpid⟩
    rcases hthin.stayed other j q' hq' with ⟨q, hq, hqid⟩
    apply h.distinct role other i j p q hp hq
    omega

theorem new (config : ServerConfig) : (Service.new config).Seated := by
  have hnobody : ∀ role (seat : Fin maxPeers),
      ((Service.new config).seats role).get seat = none := by
    intro role seat
    cases role
    all_goals exact Vector.getElem_replicate seat.isLt
  constructor
  · intro role
    exact Seats.count_le _
  · intro role seat p hp
    rw [hnobody] at hp
    cases hp
  · intro role other i j p q hp
    rw [hnobody] at hp
    cases hp

end Seated

/-! ## New connections -/

/-- A new connection took a free seat. -/
def joined (role : Role) (seat : Fin maxPeers) (now : Nat) (s : Service) : Service :=
  { s with nextId := s.nextId + 1 }.withSeats ((s.seats role).put seat (.new s.nextId now)) role

theorem nextId_joined (role : Role) (seat : Fin maxPeers) (now : Nat) (s : Service) :
    (s.joined role seat now).nextId = s.nextId + 1 :=
  nextId_withSeats _ _ role

/-- A seat has the new connection then, or the one that it had before. -/
theorem of_get_joined {role : Role} {seat i : Fin maxPeers} {now : Nat} {p : Peer} (other : Role)
    (hp : ((s.joined role seat now).seats other).get i = some p) :
    other = role ∧ i = seat ∧ p = .new s.nextId now ∨ (s.seats other).get i = some p := by
  rw [joined, seats_withSeats] at hp
  split at hp
  · next hsame =>
    rcases Seats.of_get_put hp with ⟨hi, hp⟩ | ⟨-, hold⟩
    · left
      exact ⟨hsame, hi, hp⟩
    · right
      rw [hsame]
      exact hold
  · right
    cases other <;> exact hp

/-- What becomes of a new connection. It is turned away exactly if every seat of its role
is taken. Else it takes the lowest free seat, with a number of its own, unless its socket
cannot be set up. -/
inductive Welcomed (role : Role) (now : Nat) (usable : Bool) (s : Service) : Service → Prop where
  | rejected (hfull : ∀ seat : Fin maxPeers, ((s.seats role).get seat).isSome = true) :
      Welcomed role now usable s { s with rejected := s.rejected + 1 }
  | unusable (hroom : ∃ seat : Fin maxPeers, (s.seats role).get seat = none)
      (husable : usable = false) : Welcomed role now usable s s
  | seated (seat : Fin maxPeers) (husable : usable = true)
      (hfree : (s.seats role).get seat = none)
      (hlowest : ∀ below < seat, ((s.seats role).get below).isSome = true) :
      Welcomed role now usable s (s.joined role seat now)

theorem welcome_welcomed (s : Service) (role : Role) (now : Nat) (usable : Bool) :
    Welcomed role now usable s (s.welcome role now usable) := by
  unfold welcome
  cases hfull : (s.seats role).isFull with
  | true =>
    rw [if_pos rfl]
    exact .rejected (Seats.isFull_iff.mp hfull)
  | false =>
    rw [if_neg Bool.false_ne_true]
    rcases Seats.exists_free hfull with ⟨seat, hfree⟩
    rcases Seats.of_free? hfree with ⟨hnone, hlowest⟩
    cases usable with
    | false => exact .unusable ⟨seat, hnone⟩ rfl
    | true =>
      -- a seat was free, so the connection gets it
      have hinsert : (s.seats role).insert? (.new s.nextId now) =
          some ((s.seats role).put seat (.new s.nextId now)) := by
        rw [Seats.insert?, hfree]
        rfl
      simp only [hinsert]
      exact .seated seat rfl hnone hlowest

theorem Welcomed.kept {role : Role} {now : Nat} {usable : Bool}
    (h : Welcomed role now usable s s') (other : Role) (seat : Fin maxPeers) {p : Peer}
    (hp : (s.seats other).get seat = some p) : (s'.seats other).get seat = some p := by
  cases h with
  | rejected hfull =>
    cases other <;> exact hp
  | unusable hroom husable => exact hp
  | seated free husable hfree hlowest =>
    rw [joined, seats_withSeats]
    split
    · next hsame =>
      -- the seat of the connection is another one than the free one
      rw [hsame] at hp
      have hne : free ≠ seat := by
        intro heq
        rw [heq, hp] at hfree
        cases hfree
      rw [Seats.get_put_of_ne hne]
      exact hp
    · cases other <;> exact hp

theorem Seated.welcomed (h : s.Seated) {role : Role} {now : Nat} {usable : Bool}
    (hw : Welcomed role now usable s s') : s'.Seated := by
  cases hw with
  | rejected hfull => exact h.thinned (.turnedAway s _)
  | unusable hroom husable => exact h
  | seated free husable hfree hlowest =>
    constructor
    · intro other
      exact Seats.count_le _
    · intro other i p hp
      rw [nextId_joined]
      rcases of_get_joined other hp with ⟨-, -, hnew⟩ | hold
      · rw [hnew]
        exact Nat.lt_succ_self s.nextId
      · exact Nat.lt_succ_of_lt (h.below other i p hold)
    · intro one other i j p q hp hq hsame
      rcases of_get_joined one hp with ⟨hone, hi, hpnew⟩ | holdp
      · rcases of_get_joined other hq with ⟨hother, hj, -⟩ | holdq
        · exact ⟨hone.trans hother.symm, hi.trans hj.symm⟩
        · -- the number of the new connection is that of no other one
          have hlt := h.below other j q holdq
          rw [← hsame, hpnew] at hlt
          exact absurd hlt (Nat.lt_irrefl s.nextId)
      · rcases of_get_joined other hq with ⟨-, -, hqnew⟩ | holdq
        · have hlt := h.below one i p holdp
          rw [hsame, hqnew] at hlt
          exact absurd hlt (Nat.lt_irrefl s.nextId)
        · exact h.distinct one other i j p q holdp holdq hsame

/-- What becomes of the connections that a listener has, one after the other. -/
inductive Accepted (role : Role) (now : Nat) : List AcceptOutcome → Service → Service → Prop where
  | done {s : Service} : Accepted role now [] s s
  | connection {usable : Bool} {later : List AcceptOutcome} {s s' s'' : Service}
      (hfirst : Welcomed role now usable s s')
      (hlater : Accepted role now later s' s'') :
      Accepted role now (.connection usable :: later) s s''
  | interrupted {later : List AcceptOutcome} {s s' : Service}
      (hlater : Accepted role now later s s') :
      Accepted role now (.interrupted :: later) s s'
  | failed {later : List AcceptOutcome} {s : Service} : Accepted role now (.failed :: later) s s

theorem accept_accepted (role : Role) (now : Nat) (outcomes : List AcceptOutcome) (s : Service) :
    Accepted role now outcomes s (s.accept role now outcomes) := by
  induction outcomes generalizing s with
  | nil => exact .done
  | cons outcome later ih =>
    cases outcome with
    | connection usable => exact .connection (s.welcome_welcomed role now usable) (ih _)
    | interrupted => exact .interrupted (ih s)
    | failed => exact .failed

namespace Accepted

variable {role : Role} {now : Nat} {outcomes : List AcceptOutcome}

/-- The connections that there are stay as they are. -/
theorem kept (h : Accepted role now outcomes s s') (other : Role) (seat : Fin maxPeers) {p : Peer}
    (hp : (s.seats other).get seat = some p) : (s'.seats other).get seat = some p := by
  induction h with
  | done => exact hp
  | connection hfirst hlater ih => exact ih (hfirst.kept other seat hp)
  | interrupted hlater ih => exact ih hp
  | failed => exact hp

theorem seated (h : Accepted role now outcomes s s') (hs : s.Seated) : s'.Seated := by
  induction h with
  | done => exact hs
  | connection hfirst hlater ih => exact ih (hs.welcomed hfirst)
  | interrupted hlater ih => exact ih hs
  | failed => exact hs

end Accepted

/-! ## One seat -/

/-- Nothing has changed but what sits in one seat: the connection is still there, with
the same number and with nothing new to be sent, or it is gone. -/
structure OnlySeat (role : Role) (seat : Fin maxPeers) (s s' : Service) : Prop where
  own : ∀ p', (s'.seats role).get seat = some p' →
    ∃ p, (s.seats role).get seat = some p ∧ p.id = p'.id ∧ p'.pending ⊆ p.pending
  others : ∀ other (i : Fin maxPeers), (other, i) ≠ (role, seat) →
    (s'.seats other).get i = (s.seats other).get i
  nextId : s'.nextId = s.nextId
  rejected : s'.rejected = s.rejected

namespace OnlySeat

variable {role : Role} {seat : Fin maxPeers}

theorem refl (role : Role) (seat : Fin maxPeers) (s : Service) : OnlySeat role seat s s := by
  constructor
  · intro p hp
    exact ⟨p, hp, rfl, List.Subset.refl _⟩
  · intro other i hne
    rfl
  · rfl
  · rfl

theorem trans (h : OnlySeat role seat s s') (h' : OnlySeat role seat s' s'') :
    OnlySeat role seat s s'' := by
  constructor
  · intro p'' hp''
    rcases h'.own p'' hp'' with ⟨p', hp', hid', hpending'⟩
    rcases h.own p' hp' with ⟨p, hp, hid, hpending⟩
    exact ⟨p, hp, hid.trans hid', List.Subset.trans hpending' hpending⟩
  · intro other i hne
    rw [h'.others other i hne, h.others other i hne]
  · rw [h'.nextId, h.nextId]
  · rw [h'.rejected, h.rejected]

/-- The seats of one role changed in one place, where the connection stays or leaves. -/
theorem of_seats (hown : ∀ p', (s'.seats role).get seat = some p' →
      ∃ p, (s.seats role).get seat = some p ∧ p.id = p'.id ∧ p'.pending ⊆ p.pending)
    (hrole : ∀ i : Fin maxPeers, seat ≠ i → (s'.seats role).get i = (s.seats role).get i)
    (hothers : ∀ other, other ≠ role → s'.seats other = s.seats other)
    (hnext : s'.nextId = s.nextId) (hrejected : s'.rejected = s.rejected) :
    OnlySeat role seat s s' := by
  refine ⟨hown, ?_, hnext, hrejected⟩
  intro other i hne
  by_cases hother : other = role
  · rw [hother]
    apply hrole i
    intro hi
    apply hne
    rw [hother, hi]
  · rw [hothers other hother]

theorem removeFrame (s : Service) (seat : Fin maxPeers) :
    OnlySeat .frame seat s { s with frameSeats := s.frameSeats.remove seat } := by
  apply of_seats
  · intro p hp
    have hnone := Seats.get_remove_self s.frameSeats seat
    have hsome : (s.frameSeats.remove seat).get seat = some p := hp
    rw [hnone] at hsome
    cases hsome
  · intro i hi
    exact Seats.get_remove_of_ne hi s.frameSeats
  · intro other hne
    cases other with
    | frame => exact absurd rfl hne
    | command => rfl
  · rfl
  · rfl

theorem removeCommand (s : Service) (seat : Fin maxPeers) (handled : Nat) :
    OnlySeat .command seat s
      { s with commandSeats := s.commandSeats.remove seat, handled } := by
  apply of_seats
  · intro p hp
    have hnone := Seats.get_remove_self s.commandSeats seat
    have hsome : (s.commandSeats.remove seat).get seat = some p := hp
    rw [hnone] at hsome
    cases hsome
  · intro i hi
    exact Seats.get_remove_of_ne hi s.commandSeats
  · intro other hne
    cases other with
    | command => exact absurd rfl hne
    | frame => rfl
  · rfl
  · rfl

/-- The connection in the seat was written to. -/
theorem putFrame {p p' : Peer} (hp : s.frameSeats.get seat = some p) (hid : p'.id = p.id)
    (hpending : p'.pending ⊆ p.pending) (sent : Nat) :
    OnlySeat .frame seat s { s with frameSeats := s.frameSeats.put seat p', sent } := by
  apply of_seats
  · intro q hq
    have hself := Seats.get_put_self s.frameSeats seat p'
    have hsome : (s.frameSeats.put seat p').get seat = some q := hq
    rw [hself, Option.some.injEq] at hsome
    rw [← hsome]
    exact ⟨p, hp, hid.symm, hpending⟩
  · intro i hi
    exact Seats.get_put_of_ne hi s.frameSeats p'
  · intro other hne
    cases other with
    | frame => exact absurd rfl hne
    | command => rfl
  · rfl
  · rfl

theorem discard (s : Service) (seat : Fin maxPeers) (id : Nat) (read : ReadOutcome) :
    OnlySeat .frame seat s (s.discard seat id read) := by
  unfold Service.discard
  split
  · exact .removeFrame s seat
  · exact .removeFrame s seat
  · exact .refl _ _ s

theorem send (s : Service) (seat : Fin maxPeers) (id : Nat)
    (writes : List (Nat × Peer.WriteOutcome)) :
    OnlySeat .frame seat s (s.send seat id writes).2 := by
  unfold Service.send
  split
  · exact .refl _ _ s
  · next p hget =>
    have hp : s.frameSeats.get seat = some p := (Option.filter_eq_some_iff.mp hget).1
    have hid := p.id_flush writes
    have hpending := p.pending_flush writes
    dsimp only
    split
    · exact .removeFrame s seat
    · exact .putFrame hp hid hpending s.sent
    · exact .putFrame hp hid hpending (s.sent + 1)

theorem serveFrame (s : Service) (seat : Fin maxPeers) (id : Nat) (ready : Readiness)
    (read : ReadOutcome) (writes : List (Nat × Peer.WriteOutcome)) :
    OnlySeat .frame seat s (s.serveFrame seat id ready read writes).2 := by
  unfold Service.serveFrame
  dsimp only
  have hafter : OnlySeat .frame seat s (if ready.closing then s.discard seat id read else s) := by
    split
    · exact .discard s seat id read
    · exact .refl _ _ s
  generalize (if ready.closing then s.discard seat id read else s) = t at hafter
  split
  · exact hafter.trans (.removeFrame t seat)
  · split
    · exact hafter.trans (.send t seat id writes)
    · exact hafter

theorem serveCommand {σ : Type} (control : Control σ) (s : Service) (seat : Fin maxPeers)
    (id : Nat) (ready : Readiness) (read : ReadOutcome) (world : σ) :
    OnlySeat .command seat s (s.serveCommand control seat id ready read world).2.1 := by
  unfold Service.serveCommand
  split
  · unfold Service.handleCommand
    split
    · exact .refl _ _ s
    · split
      · exact .removeCommand s seat (s.handled + 1)
      · exact .removeCommand s seat s.handled
  · split
    · exact .removeCommand s seat s.handled
    · exact .refl _ _ s

theorem thinned (h : OnlySeat role seat s s') : Thinned s s' := by
  refine ⟨?_, h.nextId⟩
  intro other i p' hp'
  by_cases hsame : (other, i) = (role, seat)
  · cases hsame
    rcases h.own p' hp' with ⟨p, hp, hid, -⟩
    exact ⟨p, hp, hid⟩
  · rw [h.others other i hsame] at hp'
    exact ⟨p', hp', rfl⟩

end OnlySeat

end Service

end FrameServer
