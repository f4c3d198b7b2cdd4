import Mathlib.Data.List.Induction
import FrameServer.Proofs.Broadcast.Order

/-!
# FrameServer.Proofs.Broadcast.Deadline — when a connection is dropped for taking nothing

A connection that something is to be sent to has until a timeout after its last sign of
life: the time at which its socket last took a byte, or at which something was pending
for the first time after nothing had been, whichever is later. Publishing is no such
sign, so that a connection which takes no bytes is dropped however much is published.

1. **Times** of events, and of the writes that take bytes.
2. **Signs of life** beside a peer.
3. **What every event keeps**: the peer remembers the latest sign.
4. **Silence**: nothing moves while no bytes are taken.
5. **Dropping**
-/

namespace FrameServer.Peer

/-! ## Times -/

/-- The times of what happens to a connection. -/
def Event.times : Event → List Nat
  | .arm now _ => [now]
  | .flush writes => writes.map Prod.fst

/-- The wire that is armed. -/
def Event.wire? : Event → Option Bytes
  | .arm _ wire => some wire
  | .flush _ => none

/-- The times of the writes that take bytes while a wire is written from byte `sent` on. -/
def takenAt (wire : Bytes) : Nat → List (Nat × WriteOutcome) → List Nat
  | _, [] => []
  | sent, (now, outcome) :: later =>
    let offered := wire.drop sent
    if offered = [] then []
    else
      match outcome with
      | .accepted count =>
        let part := offered.take count
        if part = [] then [] else now :: takenAt wire (sent + part.length) later
      | .interrupted => takenAt wire sent later
      | .wouldBlock => []
      | .failed => []

theorem takenAt_sublist (wire : Bytes) (sent : Nat) (writes : List (Nat × WriteOutcome)) :
    (takenAt wire sent writes).Sublist (writes.map Prod.fst) := by
  fun_induction takenAt wire sent writes with
  | case1 => exact List.Sublist.refl _
  | case2 => exact List.nil_sublist _
  | case3 => exact List.nil_sublist _
  | case4 sent now later offered hoffered count part hpart ih => exact ih.cons_cons now
  | case5 sent now later offered hoffered ih => exact ih.cons now
  | case6 => exact List.nil_sublist _
  | case7 => exact List.nil_sublist _

/-- Writing remembers the last time at which bytes were taken, and sends nothing if none
were. -/
theorem write_takenAt (wire : Bytes) (sent progress : Nat) (writes : List (Nat × WriteOutcome)) :
    (write wire sent progress writes).1.2 = (takenAt wire sent writes).getLast?.getD progress ∧
      (takenAt wire sent writes = [] → (write wire sent progress writes).1.1 = sent) := by
  induction writes generalizing sent progress with
  | nil => exact ⟨rfl, fun _ => rfl⟩
  | cons w later ih =>
    obtain ⟨now, outcome⟩ := w
    by_cases hlt : sent < wire.length
    · have hoffered : wire.drop sent ≠ [] := by
        rw [ne_eq, List.drop_eq_nil_iff]
        omega
      cases outcome with
      | accepted count =>
        cases count with
        | zero => simp [write, takenAt, hlt]
        | succ count =>
          have hpart : (wire.drop sent).take (count + 1) ≠ [] := by simp [hoffered]
          have hlength : ((wire.drop sent).take (count + 1)).length =
              min (count + 1) (wire.length - sent) := by
            rw [List.length_take, List.length_drop]
          -- this write is the last one to take bytes unless a later one takes some
          obtain ⟨hprogress, -⟩ := ih (sent + min (count + 1) (wire.length - sent)) now
          constructor
          · simp only [write, takenAt, hlt, hoffered, hpart, if_true, if_false, hlength, hprogress,
              List.getLast?_cons, Option.getD_some]
          · simp [takenAt, hoffered]
      | interrupted =>
        simpa only [write, takenAt, hlt, hoffered, if_true, if_false] using ih sent progress
      | wouldBlock => simp [write, takenAt, hlt]
      | failed => simp [write, takenAt, hlt]
    · have hdone : wire.drop sent = [] := List.drop_eq_nil_of_le (Nat.le_of_not_lt hlt)
      simp [write, takenAt, hlt, hdone]

/-! ## Signs of life -/

/-- A peer and its signs of life. -/
structure Timed where
  peer : Peer
  /-- When the socket took bytes. -/
  took : List Nat
  /-- When something was pending after nothing had been. -/
  began : List Nat
deriving DecidableEq, Repr

namespace Timed

/-- A connection that was just accepted. -/
def new (id now : Nat) : Timed := ⟨.new id now, [], []⟩

/-- Only arming makes something pending; only flushing offers bytes to the socket. -/
def step (w : Timed) : Event → Timed
  | .arm now wire =>
    let peer := w.peer.arm now wire
    let woken := !w.peer.wantsWrite && peer.wantsWrite
    { w with peer, began := if woken then w.began ++ [now] else w.began }
  | .flush writes =>
    let taken := match w.peer.outgoing with
      | none => []
      | some out => takenAt out.wire out.sent writes
    { w with peer := (w.peer.flush writes).peer, took := w.took ++ taken }

def run (w : Timed) (events : List Event) : Timed := events.foldl step w

/-- All signs of life. -/
def signs (w : Timed) : List Nat := w.took ++ w.began

/-- The latest sign of life. -/
def latest? (w : Timed) : Option Nat := w.signs.max?

variable {w : Timed}

theorem run_append (w : Timed) (events later : List Event) :
    w.run (events ++ later) = (w.run events).run later := List.foldl_append

/-- A sign of life is given at a time of the event that brings it. -/
theorem mem_signs_step {e : Event} {q : Nat} (hq : q ∈ (w.step e).signs) :
    q ∈ w.signs ∨ q ∈ e.times := by
  cases e with
  | arm now wire =>
    simp only [step, signs] at hq
    split at hq
    · simp only [List.mem_append, List.mem_singleton] at hq
      rcases hq with htook | hbegan | rfl
      · exact .inl (List.mem_append_left _ htook)
      · exact .inl (List.mem_append_right _ hbegan)
      · exact .inr List.mem_cons_self
    · exact .inl hq
  | flush writes =>
    simp only [step, signs, List.mem_append] at hq
    rcases hq with (htook | htaken) | hbegan
    · exact .inl (List.mem_append_left _ htook)
    · split at htaken
      · cases htaken
      · exact .inr ((takenAt_sublist _ _ _).mem htaken)
    · exact .inl (List.mem_append_right _ hbegan)

theorem mem_signs_run {events : List Event} {q : Nat} (hq : q ∈ (w.run events).signs) :
    q ∈ w.signs ∨ q ∈ events.flatMap Event.times := by
  induction events generalizing w with
  | nil => exact .inl hq
  | cons e later ih =>
    rw [List.flatMap_cons, List.mem_append]
    rcases ih hq with hstep | hlater
    · rcases mem_signs_step hstep with h | h
      · exact .inl h
      · exact .inr (.inl h)
    · exact .inr (.inr hlater)

/-! ## What every event keeps -/

/-- The peer remembers the latest sign of life, and there is one if something is to be
sent. -/
structure Kept (w : Timed) : Prop where
  newest : ∀ q ∈ w.signs, q ≤ w.peer.lastProgress
  remembered : w.signs ≠ [] → w.peer.lastProgress ∈ w.signs
  alive : w.peer.wantsWrite = true → w.signs ≠ []

namespace Kept

theorem new (id now : Nat) : Kept (.new id now) := by
  constructor
  · intro q hq
    cases hq
  · intro hsigns
    exact absurd rfl hsigns
  · intro hpending
    cases hpending

/-- The remembered sign is the latest one. -/
theorem latest?_eq (h : Kept w) (hpending : w.peer.wantsWrite = true) :
    w.latest? = some w.peer.lastProgress :=
  List.max?_eq_some_iff.mpr ⟨h.remembered (h.alive hpending), h.newest⟩

/-- Arming is a sign of life only if nothing was pending. -/
theorem arm (h : Kept w) {now : Nat} (hpast : ∀ q ∈ w.signs, q ≤ now) (wire : Bytes) :
    Kept (w.step (.arm now wire)) := by
  cases hout : w.peer.outgoing with
  | none =>
    have hstep : w.step (.arm now wire) =
        { w with
          peer := { w.peer with outgoing := some ⟨wire, 0⟩, lastProgress := now }
          began := w.began ++ [now] } := by
      simp [step, Peer.arm, wantsWrite, hout]
    rw [hstep]
    constructor
    · intro q hq
      simp only [signs, ← List.append_assoc] at hq
      rcases List.mem_append.mp hq with hold | hnow
      · exact hpast q hold
      · exact Nat.le_of_eq (List.mem_singleton.mp hnow)
    · intro _
      simp [signs]
    · intro _
      simp [signs]
  | some out =>
    have hpending : w.peer.wantsWrite = true := by simp [wantsWrite, hout]
    -- whatever becomes of the wire, the time is not remembered
    have hsame : (w.peer.arm now wire).lastProgress = w.peer.lastProgress := by
      simp only [Peer.arm, hout]
      split <;> rfl
    have hsigns : (w.step (.arm now wire)).signs = w.signs := by simp [step, signs, hpending]
    constructor
    · rw [hsigns]
      exact fun q hq => hsame ▸ h.newest q hq
    · rw [hsigns]
      exact fun hne => hsame ▸ h.remembered hne
    · rw [hsigns]
      exact fun _ => h.alive hpending

/-- What a flush remembers. -/
theorem lastProgress_flush {p : Peer} {out : Outgoing} (hout : p.outgoing = some out)
    (writes : List (Nat × WriteOutcome)) :
    (p.flush writes).peer.lastProgress =
      (takenAt out.wire out.sent writes).getLast?.getD p.lastProgress := by
  have hwrite := (write_takenAt out.wire out.sent p.lastProgress writes).1
  simp only [Peer.flush, hout]
  split <;> exact hwrite

/-- Each write that takes bytes is a sign of life. -/
theorem flush (h : Kept w) {writes : List (Nat × WriteOutcome)}
    (hordered : (writes.map Prod.fst).Pairwise (· ≤ ·))
    (hpast : ∀ q ∈ w.signs, ∀ time ∈ writes.map Prod.fst, q ≤ time) :
    Kept (w.step (.flush writes)) := by
  cases hout : w.peer.outgoing with
  | none =>
    have hsame : w.step (.flush writes) = w := by simp [step, Peer.flush, hout]
    rwa [hsame]
  | some out =>
    have hpending : w.peer.wantsWrite = true := by simp [wantsWrite, hout]
    have hprogress := lastProgress_flush hout writes
    have htimes := takenAt_sublist out.wire out.sent writes
    have hsigns : (w.step (.flush writes)).signs =
        w.took ++ takenAt out.wire out.sent writes ++ w.began := by simp [step, signs, hout]
    generalize takenAt out.wire out.sent writes = taken at hprogress htimes hsigns
    rcases List.eq_nil_or_concat taken with rfl | ⟨before, last, rfl⟩
    · -- no bytes were taken
      rw [List.append_nil] at hsigns
      constructor
      · rw [hsigns]
        exact fun q hq => hprogress ▸ h.newest q hq
      · rw [hsigns]
        exact fun hne => hprogress ▸ h.remembered hne
      · rw [hsigns]
        exact fun _ => h.alive hpending
    · -- the last write that took bytes is the latest sign
      have hend : (before.concat last).getLast? = some last := by simp
      have hlast : (w.step (.flush writes)).peer.lastProgress = last :=
        hprogress.trans (by rw [hend]; rfl)
      constructor
      · rw [hsigns, hlast]
        intro q hq
        simp only [List.mem_append] at hq
        have hmem : last ∈ writes.map Prod.fst := htimes.mem (by simp)
        rcases hq with (htook | htaken) | hbegan
        · exact hpast q (List.mem_append_left _ htook) last hmem
        · rcases rel_of_getLast? (hordered.sublist htimes) hend htaken with heq | hle
          · exact Nat.le_of_eq heq
          · exact hle
        · exact hpast q (List.mem_append_right _ hbegan) last hmem
      · rw [hsigns, hlast]
        simp
      · rw [hsigns]
        simp

theorem step (h : Kept w) {e : Event} (hordered : e.times.Pairwise (· ≤ ·))
    (hpast : ∀ q ∈ w.signs, ∀ time ∈ e.times, q ≤ time) : Kept (w.step e) := by
  cases e with
  | arm now wire => exact h.arm (fun q hq => hpast q hq now List.mem_cons_self) wire
  | flush writes => exact h.flush hordered hpast

theorem run (h : Kept w) {events : List Event}
    (hordered : (events.flatMap Event.times).Pairwise (· ≤ ·))
    (hpast : ∀ q ∈ w.signs, ∀ time ∈ events.flatMap Event.times, q ≤ time) :
    Kept (w.run events) := by
  induction events generalizing w with
  | nil => exact h
  | cons e later ih =>
    rw [List.flatMap_cons] at hordered hpast
    obtain ⟨hevent, hlater, hbetween⟩ := List.pairwise_append.mp hordered
    refine ih (h.step hevent ?_) hlater ?_
    · exact fun q hq time htime => hpast q hq time (List.mem_append_left _ htime)
    · intro q hq time htime
      -- a sign is an old one, or it was given by the event that came first
      rcases mem_signs_step hq with hold | hnew
      · exact hpast q hold time (List.mem_append_right _ htime)
      · exact hbetween q hnew time htime

end Kept

/-! ## Silence -/

theorem took_prefix_run (w : Timed) (events : List Event) : w.took <+: (w.run events).took := by
  induction events generalizing w with
  | nil => exact List.prefix_refl _
  | cons e later ih =>
    refine List.IsPrefix.trans ?_ (ih (w.step e))
    cases e with
    | arm now wire => exact List.prefix_refl _
    | flush writes => exact List.prefix_append _ _

/-- The peer is that of the connection whose wires are looked at. -/
theorem peer_run {l : Link} (h : w.peer = l.peer) (events : List Event) :
    (w.run events).peer = (l.run events).peer := by
  induction events generalizing w l with
  | nil => exact h
  | cons e later ih =>
    refine ih ?_
    cases e with
    | arm now wire => simp [step, Link.step, h]
    | flush writes => simp [step, Link.step, h]

theorem armed_run (l : Link) (events : List Event) :
    (l.run events).armed = l.armed ++ events.filterMap Event.wire? := by
  induction events generalizing l with
  | nil => simp [Link.run]
  | cons e later ih =>
    have hlater := ih (l.step e)
    cases e with
    | arm now wire => simpa [Link.run, Link.step, Event.wire?] using hlater
    | flush writes =>
      rw [List.filterMap_cons_none rfl]
      exact hlater

/-- Wires of a byte at least are never complete while they are on their way. -/
theorem sent_lt_length (id now : Nat) {events : List Event}
    (hwires : ∀ wire ∈ events.filterMap Event.wire?, wire ≠ []) {out : Outgoing}
    (hout : ((new id now).run events).peer.outgoing = some out) : out.sent < out.wire.length := by
  rw [peer_run (l := .new id now) rfl] at hout
  obtain ⟨complete, huntorn⟩ := (Link.Untorn.new id now).run events
  -- the wire is one of those that were armed
  have harmed : out.wire ∈ events.filterMap Event.wire? := by
    have hmem : out.wire ∈ complete ++ ((Link.new id now).run events).peer.pending := by
      simp [pending, hout]
    have hsub := huntorn.order.mem hmem
    rwa [armed_run] at hsub
  rcases huntorn.sound.partly out hout with hzero | hlt
  · rw [hzero]
    exact List.length_pos_iff.mpr (hwires _ harmed)
  · exact hlt

/-- An event at which no bytes are taken gives no sign of life while something is
pending, and leaves it pending. -/
theorem silent_step {out : Outgoing} (hout : w.peer.outgoing = some out)
    (hsent : out.sent < out.wire.length) {e : Event} (hsilent : (w.step e).took = w.took) :
    (w.step e).peer.wantsWrite = true ∧ (w.step e).signs = w.signs := by
  have hpending : w.peer.wantsWrite = true := by simp [wantsWrite, hout]
  cases e with
  | arm now wire =>
    constructor
    · simp only [step, wantsWrite, Peer.arm, hout]
      split <;> rfl
    · simp [step, signs, hpending]
  | flush writes =>
    have hnone : takenAt out.wire out.sent writes = [] := by
      simpa [step, hout] using hsilent
    constructor
    · -- nothing more of the wire was sent, so it is not complete
      have hwrite := (write_takenAt out.wire out.sent w.peer.lastProgress writes).2 hnone
      have hwritten := write_written out.wire (Nat.le_of_lt hsent) w.peer.lastProgress writes
      have hending : (write out.wire out.sent w.peer.lastProgress writes).2 ≠ .finished := by
        intro hfinished
        have hall := hwritten.finished_iff.mp hfinished
        omega
      rcases hresult : write out.wire out.sent w.peer.lastProgress writes with
        ⟨⟨sent, progress⟩, ending⟩
      rw [hresult] at hending
      cases ending with
      | finished => exact absurd rfl hending
      | blocked => simp [step, wantsWrite, Peer.flush, hout, hresult]
      | broken => simp [step, wantsWrite, Peer.flush, hout, hresult]
    · simp [step, signs, hout, hnone]

/-- While no bytes are taken, whatever is armed gives no sign of life. -/
theorem silent_run (id now : Nat) {events later : List Event}
    (hwires : ∀ wire ∈ (events ++ later).filterMap Event.wire?, wire ≠ [])
    (hpending : ((new id now).run events).peer.wantsWrite = true)
    (hsilent : ((new id now).run (events ++ later)).took = ((new id now).run events).took) :
    ((new id now).run (events ++ later)).peer.wantsWrite = true ∧
      ((new id now).run (events ++ later)).signs = ((new id now).run events).signs := by
  induction later using List.reverseRecOn with
  | nil => simpa using hpending
  | append_singleton front e ih =>
    rw [← List.append_assoc] at hwires hsilent ⊢
    have hlast : (new id now).run (events ++ front ++ [e]) =
        ((new id now).run (events ++ front)).step e := by rw [run_append]; rfl
    -- what was taken by then lies between what was taken before and after
    have hbefore :
        ((new id now).run events).took <+: ((new id now).run (events ++ front)).took := by
      rw [run_append]
      exact took_prefix_run _ front
    have hafter := took_prefix_run ((new id now).run (events ++ front)) [e]
    rw [← run_append, hsilent] at hafter
    have hfront := hafter.eq_of_length_le hbefore.length_le
    have hwires' : ∀ wire ∈ (events ++ front).filterMap Event.wire?, wire ≠ [] := by
      intro wire hwire
      refine hwires wire ?_
      rw [List.filterMap_append]
      exact List.mem_append_left _ hwire
    obtain ⟨hbusy, hsigns⟩ := ih hwires' hfront
    obtain ⟨out, hout⟩ := Option.isSome_iff_exists.mp hbusy
    rw [hlast] at hsilent ⊢
    rw [← hfront] at hsilent
    obtain ⟨hbusy', hsigns'⟩ := silent_step hout (sent_lt_length id now hwires' hout) hsilent
    exact ⟨hbusy', hsigns'.trans hsigns⟩

/-! ## Dropping -/

/-- A peer is stalled exactly if something is pending and the timeout has passed since
the latest sign of life. -/
theorem Kept.stalled_iff (h : Kept w) {t : Nat} (hpast : ∀ q ∈ w.signs, q ≤ t) (timeout : Nat) :
    w.peer.stalled timeout t = true ↔
      w.peer.wantsWrite = true ∧ ∃ p, w.latest? = some p ∧ p + timeout ≤ t := by
  rw [stalled, ← wantsWrite, Bool.and_eq_true, decide_eq_true_iff]
  refine and_congr_right fun hpending => ?_
  rw [h.latest?_eq hpending]
  -- no sign of life lies ahead, so that nothing is cut off below zero
  have hle := hpast _ (h.remembered (h.alive hpending))
  constructor
  · intro hlate
    exact ⟨_, rfl, by omega⟩
  · rintro ⟨p, hp, hlate⟩
    cases hp
    omega

/-- Something has been pending from that time on. -/
def PendingSince (w : Timed) (time : Nat) : Prop :=
  w.peer.wantsWrite = true ∧ ∀ b ∈ w.began, b ≤ time

/-- A peer that takes bytes in every window of some length below the timeout is not
stalled. -/
theorem Kept.not_stalled_of_windows (h : Kept w) {t : Nat} (hpast : ∀ q ∈ w.signs, q ≤ t)
    {timeout window : Nat} (hwindow : window < timeout)
    (hbytes : ∀ a, w.PendingSince a → a + window ≤ t → ∃ q ∈ w.took, a ≤ q ∧ q ≤ a + window) :
    w.peer.stalled timeout t = false := by
  rw [← Bool.not_eq_true, h.stalled_iff hpast]
  rintro ⟨hpending, p, hlatest, hlate⟩
  obtain ⟨-, hnewest⟩ := List.max?_eq_some_iff.mp hlatest
  -- the window behind the latest sign of life has ended, and no bytes were taken in it
  have hsince : w.PendingSince (p + 1) := by
    refine ⟨hpending, ?_⟩
    intro b hb
    exact Nat.le_succ_of_le (hnewest b (List.mem_append_right _ hb))
  obtain ⟨q, hq, hle, -⟩ := hbytes (p + 1) hsince (by omega)
  have hold := hnewest q (List.mem_append_left _ hq)
  omega

end Timed

theorem get_dropStalled (timeout now : Nat) (seats : Seats) (seat : Fin maxPeers) (p : Peer) :
    ((seats.put seat p).dropStalled timeout now).get seat =
      if p.stalled timeout now then none else some p := by
  rw [Seats.dropStalled, Seats.get_map, Seats.get_put_self, Option.filter_some]
  cases p.stalled timeout now <;> rfl

/-- At the end of a round a connection is dropped exactly if something is pending for it
and the timeout has passed since its latest sign of life. Arming gives none while
something is pending, so that the deadline of a connection that takes no bytes stands
still. A connection that takes bytes in every window of some length below the timeout is
not dropped. -/
theorem dropped_iff_silent_for_timeout (id start : Nat) (events : List Event) (t timeout : Nat)
    (hordered : (events.flatMap Event.times ++ [t]).Pairwise (· ≤ ·)) (seats : Seats)
    (seat : Fin maxPeers) :
    let w := (Timed.new id start).run events
    let left := ((seats.put seat w.peer).dropStalled timeout t).get seat
    (left = none ↔ w.peer.wantsWrite = true ∧ ∃ p, w.latest? = some p ∧ p + timeout ≤ t) ∧
      (w.peer.wantsWrite = true → w.latest?.isSome = true) ∧
      (w.peer.wantsWrite = false → left = some w.peer) ∧
      (∀ later : List Event, (∀ wire ∈ (events ++ later).filterMap Event.wire?, wire ≠ []) →
        w.peer.wantsWrite = true → (w.run later).took = w.took →
        (w.run later).peer.wantsWrite = true ∧ (w.run later).latest? = w.latest?) ∧
      ∀ window < timeout,
        (∀ a, w.PendingSince a → a + window ≤ t → ∃ q ∈ w.took, a ≤ q ∧ q ≤ a + window) →
        left = some w.peer := by
  intro w left
  obtain ⟨htimes, -, hend⟩ := List.pairwise_append.mp hordered
  have hkept : w.Kept := by
    refine (Timed.Kept.new id start).run htimes ?_
    intro q hq
    cases hq
  have hpast : ∀ q ∈ w.signs, q ≤ t := by
    intro q hq
    rcases Timed.mem_signs_run hq with hnone | htime
    · cases hnone
    · exact hend q htime t List.mem_cons_self
  have hleft : left = if w.peer.stalled timeout t then none else some w.peer :=
    get_dropStalled timeout t seats seat w.peer
  refine ⟨?_, ?_, ?_, ?_, ?_⟩
  · rw [hleft, ← hkept.stalled_iff hpast]
    cases w.peer.stalled timeout t <;> simp
  · intro hpending
    rw [hkept.latest?_eq hpending]
    rfl
  · intro hidle
    rw [hleft, stalled, ← wantsWrite, hidle]
    rfl
  · intro later hwires hpending hsilent
    rw [← Timed.run_append] at hsilent ⊢
    obtain ⟨hbusy, hsigns⟩ := Timed.silent_run id start hwires hpending hsilent
    exact ⟨hbusy, by rw [Timed.latest?, hsigns, Timed.latest?]⟩
  · intro window hwindow hbytes
    rw [hleft, hkept.not_stalled_of_windows hpast hwindow hbytes]
    rfl

/-- Two wires are armed behind one of which a byte was taken. The connection is dropped
ten units after that byte, and not before. -/
theorem dropped_after_newer_wires :
    let events : List Event :=
      [.arm 1 [1, 2, 3], .flush [(2, .accepted 1), (3, .wouldBlock)], .arm 5 [9], .arm 11 [8]]
    let p := ((Timed.new 7 0).run events).peer
    let seat : Fin maxPeers := ⟨3, by decide⟩
    (events.flatMap Event.times ++ [12]).Pairwise (· ≤ ·) ∧
      ((Seats.empty.put seat p).dropStalled 10 12).get seat = none ∧
      (events.flatMap Event.times ++ [11]).Pairwise (· ≤ ·) ∧
      ((Seats.empty.put seat p).dropStalled 10 11).get seat = some p := by
  intro events p seat
  have hlate : (events.flatMap Event.times ++ [12]).Pairwise (· ≤ ·) := by decide
  have hearly : (events.flatMap Event.times ++ [11]).Pairwise (· ≤ ·) := by decide
  obtain ⟨hdropped, -⟩ := dropped_iff_silent_for_timeout 7 0 events 12 10 hlate .empty seat
  obtain ⟨-, -, -, -, hkept⟩ :=
    dropped_iff_silent_for_timeout 7 0 events 11 10 hearly .empty seat
  refine ⟨hlate, hdropped.mpr ⟨by decide, 2, by decide, by decide⟩, hearly, ?_⟩
  -- a window of nine units that ends by then has the byte in it
  refine hkept 9 (by decide) ?_
  intro a hpending ha
  have hbegan : 1 ≤ a := hpending.2 1 (by decide)
  exact ⟨2, by decide, by omega, by omega⟩

end FrameServer.Peer
