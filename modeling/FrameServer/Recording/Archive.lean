import FrameServer.Config.Basic
import FrameServer.Frame.Stream
import FrameServer.Recording.Session

/-!
# FrameServer.Recording.Archive — what recording leaves on disk

What the recording root leads to, and the session folders below it. Only what a
session writes is kept: its description, its log and its frames.

1. **Errors** of recording, with their wording.
2. **Folders** and the root.
3. **Changes**: a session folder is created under a name that no other has, is
   written into as long as it is there, and may be removed.
-/

namespace FrameServer

/-! ## Errors -/

/-- Why a frame cannot be written as an image. -/
inductive EncodeFault where
  | widthOverflow
  | heightOverflow
  | missingPixels (given : Nat) (width height : Nat)
  /-- What the writer of the file format or the file itself says. -/
  | codec (reason : String)
deriving DecidableEq, Repr

def EncodeFault.reason : EncodeFault → String
  | widthOverflow => "width overflow"
  | heightOverflow => "height overflow"
  | missingPixels given w h => s!"{given} pixel bytes for a {w}x{h} frame"
  | codec reason => reason

inductive RecordingError where
  | rootMissing (path : String)
  | rootNotDirectory (path : String)
  | io (path reason : String)
  | encode (path : String) (fault : EncodeFault)
  | metadata (reason : String)
  | spawn (reason : String)
  | snapWhileRecording
  | snapPending
deriving DecidableEq, Repr

def RecordingError.message : RecordingError → String
  | rootMissing path => "log directory " ++ path ++ " does not exist"
  | rootNotDirectory path => "log path " ++ path ++ " is not a directory"
  | io path reason => path ++ ": " ++ reason
  | encode path fault => "failed to encode " ++ path ++ ": " ++ fault.reason
  | metadata reason => "failed to write session metadata: " ++ reason
  | spawn reason => "failed to spawn logger thread: " ++ reason
  | snapWhileRecording => "Snap only works when recording is disabled."
  | snapPending => "A snap is already pending."

/-! ## Folders -/

/-- What a frame's file holds. -/
inductive Content where
  /-- An image with one byte of grey for each pixel, row by row. -/
  | image (format : ImageFormat) (width height : Nat) (pixels : Bytes)
  | raw (bytes : Bytes)
deriving DecidableEq, Repr

structure SessionFolder where
  session : Session
  metadata : String
  /-- The lines of the log. -/
  timestamps : List String
  /-- The frames by file name, in the order in which they first appeared. -/
  frames : List (String × Content)
deriving DecidableEq, Repr

/-- Puts a frame under a name, in place of one that has it already. -/
def SessionFolder.store (name : String) (content : Content) (f : SessionFolder) : SessionFolder :=
  if f.frames.any (·.1 = name) then
    { f with frames := f.frames.map fun e => if e.1 = name then (name, content) else e }
  else { f with frames := f.frames ++ [(name, content)] }

/-- What the path of the recording root leads to. -/
inductive Root where
  | missing
  | file
  /-- The path cannot be followed to its end. -/
  | blocked (reason : String)
  /-- A folder with the sessions in it, in the order of their creation, and the
  names of what else is in it. -/
  | folder (others : List String) (sessions : List SessionFolder)
deriving DecidableEq, Repr

namespace Root

/-- The root is a folder. -/
def check (path : String) : Root → Except RecordingError Unit
  | missing => .error (.rootMissing path)
  | file => .error (.rootNotDirectory path)
  | blocked reason => .error (.io path reason)
  | folder _ _ => .ok ()

def sessions : Root → List SessionFolder
  | folder _ sessions => sessions
  | _ => []

/-- Changes the sessions of a root that is a folder. -/
def mapSessions (f : List SessionFolder → List SessionFolder) : Root → Root
  | folder others sessions => folder others (f sessions)
  | root => root

/-- The session's folder is there. -/
def hasSession (s : Session) (root : Root) : Bool := root.sessions.any (·.session = s)

/-! ## Changes -/

/-- The first moment from `now` on that is none of `taken`, looking at one more
moment than `tries`. -/
def freeMoment (taken : List WallTime) : Nat → WallTime → WallTime
  | 0, now => now
  | tries + 1, now => if taken.contains now then freeMoment taken tries (now + 1) else now

/-- The first moment from `now` on after which no session folder is named yet. -/
def freshStart (now : WallTime) (root : Root) : WallTime :=
  let taken := root.sessions.map (·.session.started)
  freeMoment taken taken.length now

/-- Creates the folder of a session, with a description and an empty log. -/
def create (s : Session) (camera : Settings) : Root → Root :=
  mapSessions (· ++ [⟨s, s.metadata camera, [], []⟩])

/-- Removes the folder of a session. -/
def remove (s : Session) : Root → Root := mapSessions (·.filter (·.session ≠ s))

/-- Changes the folder of a session, if it is there. -/
def update (s : Session) (f : SessionFolder → SessionFolder) : Root → Root :=
  mapSessions (·.map fun e => if e.session = s then f e else e)

end Root

end FrameServer
