import FrameServer.Server.Closing

/-!
# FrameServer.Server.Running — everything that can happen to a server

The acquisition, the drain and its workers, the service, those who call the camera and
the one who shuts the server down work side by side, and what they do may come in any
order.

1. **Acts**: what each of them can do next.
2. **Runs**: acts one after the other.
-/

namespace FrameServer.Server.Closing

/-! ## Acts -/

/-- What happens next. The times of the service are on a clock of their own. -/
inductive Act where
  /-- Time passes on the clock of the camera. -/
  | pass (clock : UInt64)
  /-- The acquisition, the logger or the one who shuts down makes a move. -/
  | move (m : Move)
  /-- The service publishes the newest frame of the ring if that is due. -/
  | publish (time : Nat)
  /-- The service deals with something that is ready; commands act on the station. -/
  | serve (time : Nat) (event : Service.Event)
  /-- The service drops the connections that have stalled. -/
  | sweep (time : Nat)
  /-- A call that a command could have made, too. -/
  | call (command : Command)
  | startImaging
  | setOffsets (x y : UInt32)
  /-- The acquisition is told to stop by a call that waits for it then. -/
  | requestStop
  /-- The call that waits for the acquisition returns. -/
  | join
deriving Repr

def withStation (station : Station PatternCamera) (c : Closing) : Closing :=
  { c with server := { c.server with station } }

def withService (service : Service) (c : Closing) : Closing :=
  { c with server := { c.server with service } }

/-- Performs an act at a time of the wall clock and of the capture clock. A move that is
not enabled changes nothing. -/
def act (wall : WallTime) (now : Nat) (a : Act) (c : Closing) : Closing :=
  let station := c.server.station
  let service := c.server.service
  match a with
  | .pass clock => c.withCamera { station.camera with clock }
  | .move m => (c.move wall now m).getD c
  | .publish time => c.withService (service.tick time station.exchange.ring.peekLatest?)
  | .serve time event =>
    let (_, service, station) := service.serve (Station.control wall now) time event station
    (c.withService service).withStation station
  | .sweep time =>
    c.withService
      { service with frameSeats := service.frameSeats.dropStalled service.writeTimeout time }
  | .call command => c.withStation (command.apply (Station.control wall now) station).2
  | .startImaging => c.withStation station.startImaging.2
  | .setOffsets x y => c.withStation (station.setOffsets x y).2
  | .requestStop => c.withCamera station.camera.requestStop
  | .join =>
    match station.camera.join? with
    | some camera => c.withCamera camera
    | none => c

/-! ## Runs -/

/-- An act and when it happens. -/
structure Occasion where
  act : Act
  wall : WallTime
  now : Nat
deriving Repr

/-- Performs acts one after the other. -/
def run (c : Closing) (occasions : List Occasion) : Closing :=
  occasions.foldl (fun c o => c.act o.wall o.now o.act) c

end FrameServer.Server.Closing
