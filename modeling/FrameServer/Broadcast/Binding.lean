import FrameServer.Config.Basic

/-!
# FrameServer.Broadcast.Binding — the ports that are listened on

The frame port is bound first, then the command port. Port 0 stands for one that
is free; any other must not be taken, and by the frame port least of all.
-/

namespace FrameServer

/-- What a connection is for. -/
inductive Role where
  | frame
  | command
deriving DecidableEq, Repr

def Role.name : Role → String
  | frame => "FRAME_SERVER"
  | command => "COMMAND_SERVER"

/-- A port cannot be listened on. -/
structure BindError where
  role : Role
  address : String
  reason : String
deriving DecidableEq, Repr

def BindError.message (e : BindError) : String :=
  "failed to bind " ++ e.role.name ++ " on " ++ e.address ++ ": " ++ e.reason

namespace ServerConfig

/-- Listens on one port. -/
def listen (role : Role) (taken : List UInt16) (address : String) (port : UInt16) :
    Except BindError Unit :=
  if port ≠ 0 ∧ taken.contains port then
    .error ⟨role, s!"{address}:{port}", "Address already in use (os error 98)"⟩
  else .ok ()

/-- Listens on both ports while others have `taken` some. -/
def bind (taken : List UInt16) (config : ServerConfig) : Except BindError Unit := do
  listen .frame taken config.bindAddress config.framePort
  listen .command (config.framePort :: taken) config.bindAddress config.commandPort

end ServerConfig

end FrameServer
