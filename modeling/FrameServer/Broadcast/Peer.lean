import FrameServer.Frame.Word

/-!
# FrameServer.Broadcast.Peer — what is being sent to one connection

A peer has at most one wire of bytes on its way and one more waiting behind it. A
wire of which bytes were sent already is always finished; one that was not begun
gives way to a newer one.

1. **State**
2. **Arming**: scheduling a wire.
3. **Flushing**: writing as much as the socket takes.
4. **Stalling**: nothing was taken for too long.
-/

namespace FrameServer

/-! ## State -/

/-- A wire and how many of its bytes were sent. -/
structure Outgoing where
  wire : Bytes
  sent : Nat
deriving DecidableEq, Repr

structure Peer where
  /-- No two connections have the same number. -/
  id : Nat
  outgoing : Option Outgoing
  /-- The newest wire that was scheduled while another one was half sent. -/
  queued : Option Bytes
  /-- When the socket last took bytes or a first wire was scheduled. -/
  lastProgress : Nat
deriving DecidableEq, Repr

namespace Peer

/-- A connection that was just accepted. -/
def new (id now : Nat) : Peer := ⟨id, none, none, now⟩

def wantsWrite (p : Peer) : Bool := p.outgoing.isSome

/-! ## Arming -/

/-- Schedules a wire. -/
def arm (now : Nat) (wire : Bytes) (p : Peer) : Peer :=
  match p.outgoing with
  | none => { p with outgoing := some ⟨wire, 0⟩, lastProgress := now }
  | some out =>
    if 0 < out.sent then { p with queued := some wire }
    else { p with outgoing := some ⟨wire, 0⟩ }

/-! ## Flushing -/

/-- What a socket says to the bytes that it is offered. -/
inductive WriteOutcome where
  /-- It takes some of them; none at all if it is closed. -/
  | accepted (count : Nat)
  | interrupted
  | wouldBlock
  | failed
deriving DecidableEq, Repr

/-- How writing ended. -/
inductive FlushEnd where
  /-- A whole wire was sent. -/
  | finished
  /-- The socket takes no more for now, or there was nothing to send. -/
  | blocked
  | broken
deriving DecidableEq, Repr

/-- Writes a wire from byte `sent` on, as long as the socket takes bytes. Each
write comes with its time; a socket that says nothing more would block. Gives the
bytes sent in all and the time of the last progress. -/
def write (wire : Bytes) : Nat → Nat → List (Nat × WriteOutcome) → (Nat × Nat) × FlushEnd
  | sent, progress, [] => ((sent, progress), if sent < wire.length then .blocked else .finished)
  | sent, progress, (now, outcome) :: later =>
    if sent < wire.length then
      match outcome with
      | .accepted 0 => ((sent, progress), .broken)
      | .accepted count => write wire (sent + min count (wire.length - sent)) now later
      | .interrupted => write wire sent progress later
      | .wouldBlock => ((sent, progress), .blocked)
      | .failed => ((sent, progress), .broken)
    else ((sent, progress), .finished)

/-- The peer after writing, with the bytes that the socket took. -/
structure Flushed where
  peer : Peer
  taken : Bytes
  ending : FlushEnd
deriving DecidableEq, Repr

/-- Writes as much of the outgoing wire as the socket takes. Once it is sent, the
wire behind it moves up. -/
def flush (writes : List (Nat × WriteOutcome)) (p : Peer) : Flushed :=
  match p.outgoing with
  | none => ⟨p, [], .blocked⟩
  | some out =>
    let ((sent, lastProgress), ending) := write out.wire out.sent p.lastProgress writes
    let taken := (out.wire.drop out.sent).take (sent - out.sent)
    match ending with
    | .finished =>
      ⟨{ p with outgoing := p.queued.map (⟨·, 0⟩), queued := none, lastProgress }, taken, ending⟩
    | _ => ⟨{ p with outgoing := some ⟨out.wire, sent⟩, lastProgress }, taken, ending⟩

/-! ## Stalling -/

/-- Something is to be sent and the socket took nothing for `timeout`. -/
def stalled (timeout now : Nat) (p : Peer) : Bool :=
  p.outgoing.isSome && timeout ≤ now - p.lastProgress

end Peer

end FrameServer
