import FrameServer.Broadcast.Peer

/-!
# FrameServer.Broadcast.Seats — a fixed number of connections

Each role has five seats. A new connection takes the lowest free seat. A seat is
looked up together with the number of the connection that is expected in it, so
that news about a connection that is gone never reaches the next one.
-/

namespace FrameServer

/-- How many connections a role has at most. -/
def maxPeers : Nat := 5

/-- The connections of one role. -/
abbrev Seats := Vector (Option Peer) maxPeers

namespace Seats

/-- Nobody is connected. -/
def empty : Seats := Vector.replicate maxPeers none

/-- The connections in the order of their seats. -/
def peers (s : Seats) : List Peer := s.toList.filterMap id

def count (s : Seats) : Nat := s.peers.length

def isEmpty (s : Seats) : Bool := s.toList.all Option.isNone

def isFull (s : Seats) : Bool := s.toList.all Option.isSome

/-- The lowest free seat. -/
def free? (s : Seats) : Option (Fin maxPeers) := (List.finRange maxPeers).find? fun i => s[i].isNone

/-- Seats a connection, unless every seat is taken. -/
def insert? (p : Peer) (s : Seats) : Option Seats :=
  s.free?.map fun (i : Fin maxPeers) => s.set i (some p)

/-- The connection in a seat, if it is the expected one. -/
def get? (s : Seats) (seat : Fin maxPeers) (id : Nat) : Option Peer := s[seat].filter (·.id = id)

/-- Frees a seat. -/
def remove (seat : Fin maxPeers) (s : Seats) : Seats := s.set seat none

/-- Puts a changed connection back. -/
def put (seat : Fin maxPeers) (p : Peer) (s : Seats) : Seats := s.set seat (some p)

/-- Schedules a wire for every connection. -/
def armAll (now : Nat) (wire : Bytes) (s : Seats) : Seats := s.map (·.map (·.arm now wire))

/-- Frees the seats of stalled connections. -/
def dropStalled (timeout now : Nat) (s : Seats) : Seats :=
  s.map (·.filter fun p => !p.stalled timeout now)

end Seats

end FrameServer
