import FrameServer.Broadcast.Peer

/-!
# FrameServer.Proofs.Broadcast.Wire — the byte stream of a connection is never torn

Wires are armed and flushed in any order, and the socket takes whatever it wants
at each write. What it has taken in all is a row of complete wires and the front
of the one that is on its way.

1. **Writing**: what one flush sends, by the socket's own account.
2. **Connections**: a peer with its history; a run is a list of events.
3. **The invariant**: complete wires, the outgoing one and the queued one are in
   the order in which they were armed, and the newest armed wire is the last.
4. **Flushing** keeps it, and gives the bytes that the socket says it took.
-/

namespace FrameServer.Peer

/-! ## Writing -/

/-- The bytes that a socket takes while a wire is written from byte `sent` on: at
each write some of the front of what it is offered. -/
def swallowed (wire : Bytes) : Nat → List (Nat × WriteOutcome) → Bytes
  | _, [] => []
  | sent, (_, outcome) :: later =>
    let offered := wire.drop sent
    if offered = [] then []
    else
      match outcome with
      | .accepted count =>
        let part := offered.take count
        if part = [] then [] else part ++ swallowed wire (sent + part.length) later
      | .interrupted => swallowed wire sent later
      | .wouldBlock => []
      | .failed => []

/-- Where a write of a wire from byte `sent` on can end. -/
structure Written (wire : Bytes) (sent : Nat) (writes : List (Nat × WriteOutcome))
    (result : (Nat × Nat) × FlushEnd) : Prop where
  onward : sent ≤ result.1.1
  within : result.1.1 ≤ wire.length
  finished_iff : result.2 = .finished ↔ result.1.1 = wire.length
  taken : swallowed wire sent writes = (wire.drop sent).take (result.1.1 - sent)

/-- Two parts of a wire that follow each other are one part. -/
theorem take_drop_split (wire : Bytes) {sent count stop : Nat} (hstop : sent + count ≤ stop) :
    (wire.drop sent).take (stop - sent) =
      (wire.drop sent).take count ++ (wire.drop (sent + count)).take (stop - (sent + count)) := by
  have hsplit : stop - sent = count + (stop - (sent + count)) := by omega
  rw [hsplit, List.take_add, List.drop_drop]

theorem write_written (wire : Bytes) {sent : Nat} (hsent : sent ≤ wire.length) (progress : Nat)
    (writes : List (Nat × WriteOutcome)) :
    Written wire sent writes (write wire sent progress writes) := by
  induction writes generalizing sent progress with
  | nil =>
    rw [write]
    refine ⟨Nat.le_refl _, hsent, ?_, ?_⟩
    · by_cases hlt : sent < wire.length
      · simp [hlt, Nat.ne_of_lt hlt]
      · simp [Nat.le_antisymm hsent (Nat.le_of_not_lt hlt)]
    · simp [swallowed]
  | cons w later ih =>
    obtain ⟨now, outcome⟩ := w
    by_cases hlt : sent < wire.length
    · have hoffered : wire.drop sent ≠ [] := by
        rw [ne_eq, List.drop_eq_nil_iff]
        omega
      -- a write that ends the flush takes nothing and leaves the wire unfinished
      have hstop : ∀ ending, ending ≠ FlushEnd.finished →
          swallowed wire sent ((now, outcome) :: later) = [] →
          Written wire sent ((now, outcome) :: later) ((sent, progress), ending) := by
        intro ending hending hnone
        refine ⟨Nat.le_refl _, hsent, ?_, ?_⟩
        · simp [hending, Nat.ne_of_lt hlt]
        · simp [hnone]
      cases outcome with
      | accepted count =>
        cases count with
        | zero =>
          simp only [write, hlt, if_true]
          exact hstop _ (by simp) (by simp [swallowed])
        | succ count =>
          simp only [write, hlt, if_true]
          have hlength : (wire.drop sent).length = wire.length - sent := List.length_drop
          have hpart : ((wire.drop sent).take (count + 1)).length =
              min (count + 1) (wire.length - sent) := by rw [List.length_take, hlength]
          have hsome : (wire.drop sent).take (count + 1) ≠ [] := by
            rw [ne_eq, ← List.length_eq_zero_iff, hpart]
            omega
          -- the rest is written from the first byte that was not taken
          have hnext : sent + min (count + 1) (wire.length - sent) ≤ wire.length := by omega
          obtain ⟨honward, hwithin, hfinished, htaken⟩ := ih hnext now
          refine ⟨by omega, hwithin, hfinished, ?_⟩
          simp only [swallowed, hoffered, hsome, if_false, hpart, htaken]
          rw [take_drop_split wire honward, List.take_eq_take_min, hlength]
      | interrupted =>
        simp only [write, hlt, if_true]
        obtain ⟨honward, hwithin, hfinished, htaken⟩ := ih hsent progress
        refine ⟨honward, hwithin, hfinished, ?_⟩
        simp only [swallowed, hoffered, if_false, htaken]
      | wouldBlock =>
        simp only [write, hlt, if_true]
        exact hstop _ (by simp) (by simp [swallowed])
      | failed =>
        simp only [write, hlt, if_true]
        exact hstop _ (by simp) (by simp [swallowed])
    · have hdone : sent = wire.length := Nat.le_antisymm hsent (Nat.le_of_not_lt hlt)
      simp only [write, hlt, if_false]
      refine ⟨Nat.le_refl _, hsent, ?_, ?_⟩
      · simp [hdone]
      · simp [swallowed, hdone]

/-- The bytes that a socket takes in a flush of a peer. -/
def swallows (writes : List (Nat × WriteOutcome)) (p : Peer) : Bytes :=
  match p.outgoing with
  | none => []
  | some out => swallowed out.wire out.sent writes

/-! ## Connections -/

/-- What happens to a connection. A flush may be cut short after any write, so the
moments inside a flush are ends of runs as well. -/
inductive Event where
  | arm (now : Nat) (wire : Bytes)
  | flush (writes : List (Nat × WriteOutcome))
deriving DecidableEq, Repr

/-- A peer and what has become of its wires. -/
structure Link where
  peer : Peer
  /-- The wires in the order in which they were armed. -/
  armed : List Bytes
  /-- The bytes that the flushes handed to the socket. -/
  accepted : Bytes
  /-- How many flushes said that a whole wire was sent. -/
  finished : Nat
deriving DecidableEq, Repr

namespace Link

/-- A connection that was just accepted. -/
def new (id now : Nat) : Link := ⟨.new id now, [], [], 0⟩

def step (l : Link) : Event → Link
  | .arm now wire => { l with peer := l.peer.arm now wire, armed := l.armed ++ [wire] }
  | .flush writes =>
    let flushed := l.peer.flush writes
    { l with
      peer := flushed.peer
      accepted := l.accepted ++ flushed.taken
      finished := if flushed.ending = .finished then l.finished + 1 else l.finished }

def run (l : Link) (events : List Event) : Link := events.foldl step l

end Link

/-! ## The invariant -/

/-- The wires that are not completely sent, the older first. -/
def pending (p : Peer) : List Bytes := (p.outgoing.map (·.wire)).toList ++ p.queued.toList

/-- The bytes of the outgoing wire that were sent. -/
def begun (p : Peer) : Bytes :=
  match p.outgoing with
  | none => []
  | some out => out.wire.take out.sent

/-- The peer is between two whole wires, or inside its outgoing one; only then does
a wire wait behind it. -/
structure Sound (p : Peer) : Prop where
  partly : ∀ out, p.outgoing = some out → out.sent = 0 ∨ out.sent < out.wire.length
  queued : ∀ wire, p.queued = some wire → ∃ out, p.outgoing = some out ∧ 0 < out.sent

/-- The wires in `complete` went out whole, one after the other, and the socket has
the front of the outgoing wire behind them. -/
structure Link.Untorn (l : Link) (complete : List Bytes) : Prop where
  sound : l.peer.Sound
  accepted : l.accepted = complete.flatten ++ l.peer.begun
  order : (complete ++ l.peer.pending).Sublist l.armed
  newest : (complete ++ l.peer.pending).getLast? = l.armed.getLast?
  finished : l.finished = complete.length

theorem Sound.sent_le {p : Peer} (hp : p.Sound) {out : Outgoing} (hout : p.outgoing = some out) :
    out.sent ≤ out.wire.length := by
  have hpartly := hp.partly out hout
  omega

theorem Sound.queued_none_of_idle {p : Peer} (hp : p.Sound) (hidle : p.outgoing = none) :
    p.queued = none := by
  cases hq : p.queued with
  | none => rfl
  | some wire =>
    obtain ⟨out, hout, -⟩ := hp.queued wire hq
    rw [hidle] at hout
    cases hout

theorem Sound.queued_none_of_unsent {p : Peer} {out : Outgoing} (hp : p.Sound)
    (hout : p.outgoing = some out) (hsent : out.sent = 0) : p.queued = none := by
  cases hq : p.queued with
  | none => rfl
  | some wire =>
    obtain ⟨out', hout', hpos⟩ := hp.queued wire hq
    rw [hout, Option.some.injEq] at hout'
    subst hout'
    omega

namespace Link.Untorn

variable {l : Link} {complete : List Bytes}

theorem new (id now : Nat) : (Link.new id now).Untorn [] := by
  refine ⟨⟨?_, ?_⟩, rfl, List.nil_sublist _, rfl, rfl⟩
  · intro out hout
    cases hout
  · intro wire hwire
    cases hwire

/-- An armed wire goes to the end of the line, in place of one that was not begun. -/
theorem arm (h : l.Untorn complete) (now : Nat) (wire : Bytes) :
    (l.step (.arm now wire)).Untorn complete := by
  have horder := h.order
  have haccepted := h.accepted
  cases hout : l.peer.outgoing with
  | none =>
    -- nothing is on its way: the wire becomes the outgoing one
    have hqueued := h.sound.queued_none_of_idle hout
    have hprefix := (List.sublist_append_left complete l.peer.pending).trans horder
    refine ⟨⟨?_, ?_⟩, ?_, ?_, ?_, h.finished⟩
    · simp [step, Peer.arm, hout]
    · simp [step, Peer.arm, hout, hqueued]
    · simpa [step, Peer.arm, begun, hout] using haccepted
    · simpa [step, Peer.arm, pending, hout, hqueued] using hprefix.append_right [wire]
    · simp [step, Peer.arm, pending, hout, hqueued]
  | some out =>
    have hpartly := h.sound.partly out hout
    by_cases hsent : 0 < out.sent
    · -- the outgoing wire has to be finished: the new one takes the place behind it
      have hprefix : (complete ++ [out.wire]).Sublist l.armed := by
        refine List.Sublist.trans ?_ horder
        simp [pending, hout]
      refine ⟨⟨?_, ?_⟩, ?_, ?_, ?_, h.finished⟩
      · simpa [step, Peer.arm, hout, hsent] using hpartly
      · simp [step, Peer.arm, hout, hsent]
      · simpa [step, Peer.arm, begun, hout, hsent] using haccepted
      · simpa [step, Peer.arm, pending, hout, hsent] using hprefix.append_right [wire]
      · simp [step, Peer.arm, pending, hout, hsent]
    · -- nothing of the outgoing wire was sent: the new one takes its place
      have hzero : out.sent = 0 := Nat.eq_zero_of_not_pos hsent
      have hqueued := h.sound.queued_none_of_unsent hout hzero
      have hprefix := (List.sublist_append_left complete l.peer.pending).trans horder
      refine ⟨⟨?_, ?_⟩, ?_, ?_, ?_, h.finished⟩
      · simp [step, Peer.arm, hout, hzero]
      · simp [step, Peer.arm, hout, hzero, hqueued]
      · simpa [step, Peer.arm, begun, hout, hzero] using haccepted
      · simpa [step, Peer.arm, pending, hout, hzero, hqueued] using hprefix.append_right [wire]
      · simp [step, Peer.arm, pending, hout, hzero, hqueued]

/-! ## Flushing -/

section Flush

variable {out : Outgoing} {writes : List (Nat × WriteOutcome)} {sent progress : Nat}
  {ending : FlushEnd}

/-- After a flush the socket has the front of the outgoing wire up to where the flush
ended. -/
theorem taken (h : l.Untorn complete) (hout : l.peer.outgoing = some out)
    (hresult : write out.wire out.sent l.peer.lastProgress writes = ((sent, progress), ending)) :
    out.sent ≤ sent ∧ sent ≤ out.wire.length ∧ (ending = .finished ↔ sent = out.wire.length) ∧
      l.accepted ++ (l.peer.flush writes).taken = complete.flatten ++ out.wire.take sent := by
  have hwritten := write_written out.wire (h.sound.sent_le hout) l.peer.lastProgress writes
  rw [hresult] at hwritten
  obtain ⟨honward, hwithin, hfinished, -⟩ := hwritten
  simp only at honward hwithin hfinished
  refine ⟨honward, hwithin, hfinished, ?_⟩
  have htaken : (l.peer.flush writes).taken = (out.wire.drop out.sent).take (sent - out.sent) := by
    cases ending <;> simp [Peer.flush, hout, hresult]
  -- what was sent before and what is sent now are one front of the wire
  have hfront : out.wire.take out.sent ++ (out.wire.drop out.sent).take (sent - out.sent) =
      out.wire.take sent := by
    have hsplit := @take_drop_split out.wire 0 out.sent sent (by omega)
    simpa using hsplit.symm
  rw [h.accepted, htaken, begun, hout, List.append_assoc, hfront]

/-- A flush that leaves the wire unfinished changes nothing but how much of it was
sent. -/
theorem flush_unfinished (h : l.Untorn complete) (hout : l.peer.outgoing = some out)
    (hresult : write out.wire out.sent l.peer.lastProgress writes = ((sent, progress), ending))
    (hending : ending ≠ .finished) : (l.step (.flush writes)).Untorn complete := by
  obtain ⟨honward, hwithin, hfinished, haccepted⟩ := h.taken hout hresult
  have hlt : sent < out.wire.length := by
    have hne : sent ≠ out.wire.length := fun h => hending (hfinished.2 h)
    omega
  have hstep : l.step (.flush writes) =
      { l with
        peer := { l.peer with outgoing := some ⟨out.wire, sent⟩, lastProgress := progress }
        accepted := l.accepted ++ (l.peer.flush writes).taken } := by
    cases ending with
    | finished => exact absurd rfl hending
    | blocked => simp [step, Peer.flush, hout, hresult]
    | broken => simp [step, Peer.flush, hout, hresult]
  have horder := h.order
  have hnewest := h.newest
  rw [hstep]
  refine ⟨⟨?_, ?_⟩, haccepted, ?_, ?_, h.finished⟩
  · simp [hlt]
  · intro wire hwire
    obtain ⟨out', hout', hpos⟩ := h.sound.queued wire hwire
    rw [hout, Option.some.injEq] at hout'
    subst hout'
    exact ⟨_, rfl, by simpa using Nat.lt_of_lt_of_le hpos honward⟩
  · simpa [pending, hout] using horder
  · simpa [pending, hout] using hnewest

/-- A flush that finishes the wire leaves the one behind it, of which nothing was sent
yet. -/
theorem flush_finished (h : l.Untorn complete) (hout : l.peer.outgoing = some out)
    (hresult : write out.wire out.sent l.peer.lastProgress writes =
      ((sent, progress), .finished)) :
    (l.step (.flush writes)).Untorn (complete ++ [out.wire]) := by
  obtain ⟨-, -, hfinished, haccepted⟩ := h.taken hout hresult
  rw [hfinished.1 rfl, List.take_length] at haccepted
  have horder := h.order
  have hnewest := h.newest
  have hbegun : (l.step (.flush writes)).peer.begun = [] := by
    cases hqueued : l.peer.queued <;> simp [step, Peer.flush, hout, hresult, begun, hqueued]
  refine ⟨⟨?_, ?_⟩, ?_, ?_, ?_, ?_⟩
  · intro out' hout'
    simp only [step, Peer.flush, hout, hresult, Option.map_eq_some_iff] at hout'
    obtain ⟨wire, -, rfl⟩ := hout'
    exact Or.inl rfl
  · simp [step, Peer.flush, hout, hresult]
  · rw [hbegun, List.append_nil, List.flatten_concat]
    exact haccepted
  · cases hqueued : l.peer.queued <;>
      simpa [step, Peer.flush, hout, hresult, pending, hqueued] using horder
  · cases hqueued : l.peer.queued <;>
      simpa [step, Peer.flush, hout, hresult, pending, hqueued] using hnewest
  · simp [step, Peer.flush, hout, hresult, h.finished]

end Flush

/-- A flush sends more of the outgoing wire; once that is complete, the wire behind
it moves up. -/
theorem flush (h : l.Untorn complete) (writes : List (Nat × WriteOutcome)) :
    ∃ complete', (l.step (.flush writes)).Untorn complete' := by
  cases hout : l.peer.outgoing with
  | none =>
    refine ⟨complete, ?_⟩
    have hsame : l.step (.flush writes) = l := by simp [step, Peer.flush, hout]
    rwa [hsame]
  | some out =>
    rcases hresult : write out.wire out.sent l.peer.lastProgress writes with
      ⟨⟨sent, progress⟩, ending⟩
    cases ending with
    | finished => exact ⟨_, h.flush_finished hout hresult⟩
    | blocked => exact ⟨complete, h.flush_unfinished hout hresult (by simp)⟩
    | broken => exact ⟨complete, h.flush_unfinished hout hresult (by simp)⟩

theorem run (h : l.Untorn complete) (events : List Event) :
    ∃ complete', (l.run events).Untorn complete' := by
  induction events generalizing l complete with
  | nil => exact ⟨complete, h⟩
  | cons event events ih =>
    cases event with
    | arm now wire => exact ih (h.arm now wire)
    | flush writes =>
      obtain ⟨complete', h'⟩ := h.flush writes
      exact ih h'

end Link.Untorn

/-- What a flush gives as taken is what the socket says it took. -/
theorem Sound.taken_flush {p : Peer} (hp : p.Sound) (writes : List (Nat × WriteOutcome)) :
    (p.flush writes).taken = p.swallows writes := by
  cases hout : p.outgoing with
  | none => simp [flush, swallows, hout]
  | some out =>
    have hwritten := write_written out.wire (hp.sent_le hout) p.lastProgress writes
    rcases hresult : write out.wire out.sent p.lastProgress writes with
      ⟨⟨sent, progress⟩, ending⟩
    rw [hresult] at hwritten
    have htaken := hwritten.taken
    cases ending <;> simp [flush, swallows, hout, hresult, htaken]

/-- Whatever is armed and whatever the socket does at each write, the bytes that were
handed to it are some of the armed wires whole and in order, then the front of the
outgoing wire, which was armed after them; and each flush hands over what the socket
takes, write by write. As many flushes said that a wire was finished. A wire waits
only behind one that is partly sent, and the wire that was armed last is finished,
on its way or waiting. -/
theorem accepted_eq_whole_wires (id now : Nat) (events : List Event) :
    let l := (Link.new id now).run events
    ∃ complete : List Bytes,
      l.accepted = complete.flatten ++ l.peer.begun ∧
      (∀ writes, (l.peer.flush writes).taken = l.peer.swallows writes) ∧
      (complete ++ l.peer.pending).Sublist l.armed ∧
      l.finished = complete.length ∧
      (∀ wire, l.peer.queued = some wire →
        ∃ out, l.peer.outgoing = some out ∧ 0 < out.sent ∧ out.sent < out.wire.length) ∧
      (complete ++ l.peer.pending).getLast? = l.armed.getLast? := by
  obtain ⟨complete, h⟩ := (Link.Untorn.new id now).run events
  refine ⟨complete, h.accepted, h.sound.taken_flush, h.order, h.finished, ?_, h.newest⟩
  intro wire hwire
  obtain ⟨out, hout, hpos⟩ := h.sound.queued wire hwire
  rcases h.sound.partly out hout with hzero | hlt
  · omega
  · exact ⟨out, hout, hpos, hlt⟩

end FrameServer.Peer
