import FrameServer.Broadcast.Binding
import FrameServer.Broadcast.Seats
import FrameServer.Capture.Rate
import FrameServer.Control.Answer
import FrameServer.Ring.Basic
import FrameServer.Text.Utf8

/-!
# FrameServer.Broadcast.Service — publishing frames and taking commands

One loop serves both roles. In each round it publishes the newest frame if that
is due, waits until a connection is ready or a timeout has passed, deals with
what is ready, and drops the connections that have stalled. Times are nanoseconds
on one clock; what sockets do is told by the events.

1. **State**
2. **Publishing**, and how long to wait for the next time.
3. **Accepting** connections.
4. **Frame connections**: what they send is thrown away; frames are written.
5. **Command connections**: each is read once and answered once.
6. **Rounds**
-/

namespace FrameServer

/-! ## State -/

structure Service where
  frameSeats : Seats
  commandSeats : Seats
  /-- The time between two frames that are published. -/
  publishInterval : Nat
  /-- The longest time to wait for connections. -/
  pollInterval : Nat
  /-- How long a frame connection may take no bytes. -/
  writeTimeout : Nat
  /-- The number of the frame that was published last. -/
  lastPublished : Option UInt64
  /-- When publishing was last due with somebody connected. -/
  lastTick : Option Nat
  /-- The number of the next connection. -/
  nextId : Nat
  published : Nat
  sent : Nat
  rejected : Nat
  handled : Nat
deriving Repr

namespace Service

/-- The service of a configuration before anybody has connected. -/
def new (config : ServerConfig) : Service where
  frameSeats := .empty
  commandSeats := .empty
  publishInterval := framePeriod config.publishRateHz
  pollInterval := config.pollIntervalMs.toNat * 1000000
  writeTimeout := config.writeTimeoutMs.toNat * 1000000
  lastPublished := none
  lastTick := none
  nextId := 0
  published := 0
  sent := 0
  rejected := 0
  handled := 0

def seats (s : Service) : Role → Seats
  | .frame => s.frameSeats
  | .command => s.commandSeats

def withSeats (seats : Seats) (s : Service) : Role → Service
  | .frame => { s with frameSeats := seats }
  | .command => { s with commandSeats := seats }

/-! ## Publishing -/

/-- The publish interval has passed. -/
def isDue (now : Nat) (s : Service) : Bool :=
  match s.lastTick with
  | none => true
  | some t => s.publishInterval ≤ now - t

/-- Schedules a frame for every frame connection, unless it was the last one to be
published. -/
def publish (now : Nat) (frame : Frame) (s : Service) : Service :=
  if s.lastPublished = some frame.header.frameId then s
  else
    { s with
      lastPublished := some frame.header.frameId
      frameSeats := s.frameSeats.armAll now (frame.writeOver [])
      published := s.published + 1 }

/-- Publishes the newest frame of the ring if that is due and somebody listens. -/
def tick (now : Nat) (newest : Option Frame) (s : Service) : Service :=
  if s.isDue now && !s.frameSeats.isEmpty then
    let s := { s with lastTick := some now }
    match newest with
    | none => s
    | some frame => s.publish now frame
  else s

/-- How long to wait for connections. -/
def timeout (now : Nat) (s : Service) : Nat :=
  match s.lastTick with
  | none => s.pollInterval
  | some t => min (s.publishInterval - (now - t)) s.pollInterval

/-- The longest time that a poll is given, in milliseconds. -/
def maxPollTimeout : Nat := 65535

/-- How long a poll is to wait: the whole milliseconds of the timeout. -/
def pollTimeout (now : Nat) (s : Service) : Nat := min (s.timeout now / 1000000) maxPollTimeout

/-! ## Accepting -/

/-- What a listener says when asked for a connection. -/
inductive AcceptOutcome where
  /-- A connection; `usable` if its socket could be set up. -/
  | connection (usable : Bool)
  | interrupted
  | failed
deriving DecidableEq, Repr

/-- Seats a connection, or turns it away if every seat of its role is taken. -/
def welcome (role : Role) (now : Nat) (usable : Bool) (s : Service) : Service :=
  if (s.seats role).isFull then { s with rejected := s.rejected + 1 }
  else if !usable then s
  else
    let s' := { s with nextId := s.nextId + 1 }
    match (s.seats role).insert? (.new s.nextId now) with
    | some seats => s'.withSeats seats role
    | none => { s' with rejected := s'.rejected + 1 }

/-- Accepts connections until the listener has no more. -/
def accept (role : Role) (now : Nat) : List AcceptOutcome → Service → Service
  | [], s => s
  | .connection usable :: later, s => accept role now later (s.welcome role now usable)
  | .interrupted :: later, s => accept role now later s
  | .failed :: _, s => s

/-! ## Frame connections -/

/-- What a connection is ready for. -/
structure Readiness where
  readable : Bool
  hungUp : Bool
  error : Bool
  invalid : Bool
  writable : Bool
deriving DecidableEq, Repr

/-- There is something to be read, if only that nothing more will come. -/
def Readiness.closing (r : Readiness) : Bool := r.readable || r.hungUp || r.error

/-- What reading from a connection gives. -/
inductive ReadOutcome where
  | closed
  | bytes (data : Bytes)
  /-- Nothing at the moment. -/
  | again
  | failed
deriving DecidableEq, Repr

/-- Throws away what a frame connection sent; drops it if it is closed. -/
def discard (seat : Fin maxPeers) (id : Nat) (read : ReadOutcome) (s : Service) : Service :=
  match s.frameSeats.get? seat id, read with
  | some _, .closed | some _, .failed => { s with frameSeats := s.frameSeats.remove seat }
  | _, _ => s

/-- Writes to a frame connection; drops it if it is broken. Gives the bytes that its
socket took. -/
def send (seat : Fin maxPeers) (id : Nat) (writes : List (Nat × Peer.WriteOutcome)) (s : Service) :
    Bytes × Service :=
  match s.frameSeats.get? seat id with
  | none => ([], s)
  | some p =>
    let flushed := p.flush writes
    let s := match flushed.ending with
      | .broken => { s with frameSeats := s.frameSeats.remove seat }
      | .blocked => { s with frameSeats := s.frameSeats.put seat flushed.peer }
      | .finished => { s with frameSeats := s.frameSeats.put seat flushed.peer, sent := s.sent + 1 }
    (flushed.taken, s)

/-- Deals with a frame connection that is ready. Gives the bytes that its socket took. -/
def serveFrame (seat : Fin maxPeers) (id : Nat) (ready : Readiness) (read : ReadOutcome)
    (writes : List (Nat × Peer.WriteOutcome)) (s : Service) : Bytes × Service :=
  let s := if ready.closing then s.discard seat id read else s
  if ready.invalid then ([], { s with frameSeats := s.frameSeats.remove seat })
  else if ready.writable then s.send seat id writes
  else ([], s)

/-! ## Command connections -/

/-- The longest command; what a client sends beyond it is not read. -/
def maxCommandLength : Nat := 256

/-- Reads the command of a connection, carries it out and gives the reply that is
written to the connection. The connection leaves its seat whatever happens. -/
def handleCommand {σ : Type} (control : Control σ) (seat : Fin maxPeers) (id : Nat)
    (read : ReadOutcome) (s : Service) (world : σ) : Option Reply × Service × σ :=
  match s.commandSeats.get? seat id with
  | none => (none, s, world)
  | some _ =>
    let s := { s with commandSeats := s.commandSeats.remove seat }
    match read with
    | .bytes data =>
      let (reply, world) := answer control (Text.ofBytes (data.take maxCommandLength)) world
      (some reply, { s with handled := s.handled + 1 }, world)
    | _ => (none, s, world)

/-- Deals with a command connection that is ready. -/
def serveCommand {σ : Type} (control : Control σ) (seat : Fin maxPeers) (id : Nat)
    (ready : Readiness) (read : ReadOutcome) (s : Service) (world : σ) :
    Option Reply × Service × σ :=
  if ready.closing then s.handleCommand control seat id read world
  else if ready.invalid then (none, { s with commandSeats := s.commandSeats.remove seat }, world)
  else (none, s, world)

/-! ## Rounds -/

/-- Something that is ready, with what its socket will do. -/
inductive Event where
  | listener (role : Role) (outcomes : List AcceptOutcome)
  | frame (seat : Fin maxPeers) (id : Nat) (ready : Readiness) (read : ReadOutcome)
      (writes : List (Nat × Peer.WriteOutcome))
  | command (seat : Fin maxPeers) (id : Nat) (ready : Readiness) (read : ReadOutcome)
deriving DecidableEq, Repr

/-- What goes out to a connection. -/
structure Output where
  /-- The bytes that the socket of a frame connection took. -/
  taken : Bytes
  /-- The reply to a command connection. -/
  reply : Option Reply
deriving DecidableEq, Repr

/-- Deals with one event. -/
def serve {σ : Type} (control : Control σ) (now : Nat) (event : Event) (s : Service) (world : σ) :
    Output × Service × σ :=
  match event with
  | .listener role outcomes => (⟨[], none⟩, s.accept role now outcomes, world)
  | .frame seat id ready read writes =>
    let (taken, s) := s.serveFrame seat id ready read writes
    (⟨taken, none⟩, s, world)
  | .command seat id ready read =>
    let (reply, s, world) := s.serveCommand control seat id ready read world
    (⟨[], reply⟩, s, world)

/-- Deals with what became ready in one round, in turn, then drops the frame
connections that have stalled. Gives the replies that were written. -/
def round {σ : Type} (control : Control σ) (now : Nat) (events : List Event) (s : Service)
    (world : σ) : List Reply × Service × σ :=
  let (replies, s, world) := events.foldl
    (fun (replies, s, world) event =>
      let (output, s, world) := s.serve control now event world
      (replies ++ output.reply.toList, s, world))
    ([], s, world)
  (replies, { s with frameSeats := s.frameSeats.dropStalled s.writeTimeout now }, world)

/-- Every connection is closed when the service ends. -/
def close (s : Service) : Service := { s with frameSeats := .empty, commandSeats := .empty }

end Service

end FrameServer
