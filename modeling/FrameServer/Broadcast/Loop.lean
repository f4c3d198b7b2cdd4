import FrameServer.Broadcast.Service

/-!
# FrameServer.Broadcast.Loop — the loop of the service

The service goes round in a loop. It looks whether to publish, polls its listeners and
its connections, deals with those that are ready one after the other, and drops the
connections that have stalled. The loop ends when a request to shut down is found at
its top, and when polling fails.

1. **Polling**: what is polled, and the events of what is ready.
2. **The loop** and where it stands.
3. **Moves** of the loop. Each of them is enabled in one stage only, so a list of moves
   is a run.
-/

namespace FrameServer

namespace Service

/-! ## Polling -/

/-- A connection as it is polled. -/
structure Polled where
  role : Role
  seat : Fin maxPeers
  id : Nat
deriving DecidableEq, Repr

/-- The connections of a role, in the order of their seats. -/
def polled (role : Role) (s : Service) : List Polled :=
  (List.finRange maxPeers).filterMap fun (seat : Fin maxPeers) =>
    ((s.seats role).get seat).map fun p => ⟨role, seat, p.id⟩

/-- What a connection is ready for, and what its socket does at the time at which the
connection is dealt with. -/
structure Answer where
  now : Nat
  ready : Readiness
  read : ReadOutcome
  writes : List (Nat × Peer.WriteOutcome)
deriving Repr

/-- The event of a connection that is ready. -/
def Polled.event (answer : Answer) : Polled → Event
  | ⟨.frame, seat, id⟩ => .frame seat id answer.ready answer.read answer.writes
  | ⟨.command, seat, id⟩ => .command seat id answer.ready answer.read

/-- What poll and the sockets say. What is not ready says nothing. -/
structure Sockets where
  listener : Role → Option (Nat × List AcceptOutcome)
  client : Role → Fin maxPeers → Option Answer

/-- The events of the listeners that are ready, each with its time. -/
def Sockets.arrivals (sockets : Sockets) : List (Nat × Event) :=
  [Role.frame, Role.command].filterMap fun role =>
    (sockets.listener role).map fun (now, outcomes) => (now, .listener role outcomes)

/-- The events of what is ready: the listeners come first, then the connections that
there are. -/
def poll (sockets : Sockets) (s : Service) : List (Nat × Event) :=
  sockets.arrivals ++ (s.polled .frame ++ s.polled .command).filterMap fun c =>
    (sockets.client c.role c.seat).map fun answer => (answer.now, c.event answer)

end Service

/-! ## The loop -/

/-- A command that was answered. -/
structure Answered where
  /-- The connection that sent it. -/
  id : Nat
  /-- What was read. -/
  text : List Char
  reply : Reply
deriving DecidableEq, Repr

namespace Loop

/-- Where the loop stands. -/
inductive Stage where
  /-- At the top, about to look whether to publish. -/
  | looking
  | polling
  /-- Dealing with what is ready. -/
  | serving (ready : List (Nat × Service.Event))
  | ended
deriving DecidableEq, Repr

end Loop

/-- A service in its loop. -/
structure Loop (σ : Type) where
  service : Service
  /-- What commands act on. -/
  world : σ
  stage : Loop.Stage
  /-- The commands that were answered, in order. -/
  answered : List Answered
  /-- How long each poll was to wait, in milliseconds. -/
  waits : List Nat

namespace Loop

/-- Nobody has connected yet. -/
def new {σ : Type} (config : ServerConfig) (world : σ) : Loop σ :=
  ⟨.new config, world, .looking, [], []⟩

/-! ## Moves -/

inductive Move where
  /-- Publishes the newest frame of the ring if that is due. -/
  | look (now : Nat) (newest : Option Frame)
  /-- A request to shut down is found. -/
  | finish
  | poll (now : Nat) (sockets : Service.Sockets)
  /-- Polling fails. -/
  | breakOff
  /-- Deals with the next one that is ready. -/
  | serve
  /-- Drops the connections that have stalled. -/
  | sweep (now : Nat)

variable {σ : Type} (control : Control σ)

/-- The command that a reply answers. -/
def answered? : Service.Event → Option Reply → Option Answered
  | .command _ id _ (.bytes data), some reply =>
    some ⟨id, Text.ofBytes (data.take Service.maxCommandLength), reply⟩
  | _, _ => none

/-- Deals with one that is ready. -/
def deal (now : Nat) (event : Service.Event) (x : Loop σ) : Loop σ :=
  let (output, service, world) := x.service.serve control now event x.world
  { x with service, world, answered := x.answered ++ (answered? event output.reply).toList }

/-- Every connection is closed. -/
def close (x : Loop σ) : Loop σ := { x with service := x.service.close, stage := .ended }

/-- Makes a move if it is enabled. -/
def move (m : Move) (x : Loop σ) : Option (Loop σ) :=
  match m, x.stage with
  | .look now newest, .looking =>
    some { x with service := x.service.tick now newest, stage := .polling }
  | .finish, .looking => some x.close
  | .poll now sockets, .polling =>
    some { x with
      stage := .serving (x.service.poll sockets)
      waits := x.waits ++ [x.service.pollTimeout now] }
  | .breakOff, .polling => some x.close
  | .serve, .serving ((now, event) :: later) =>
    some { x.deal control now event with stage := .serving later }
  | .sweep now, .serving [] =>
    some { x with
      service := { x.service with
        frameSeats := x.service.frameSeats.dropStalled x.service.writeTimeout now }
      stage := .looking }
  | _, _ => none

/-- Makes those moves that are enabled. -/
def run (x : Loop σ) (moves : List Move) : Loop σ :=
  moves.foldl (fun x m => (x.move control m).getD x) x

end Loop

end FrameServer
