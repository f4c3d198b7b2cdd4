import FrameServer.Calendar.Instant
import FrameServer.Capture.Settings

/-!
# FrameServer.Recording.Session — recording sessions and their files

A session is a folder `<root>/<YYYY.MM.DD>/<YYYY.MM.DD_HH.MM.SS.mmm>` named after
the moment at which it was opened. It holds a description of the camera, a log
with a line for each frame, and the frames.
-/

namespace FrameServer

open Calendar (Instant)
open Decimal (padded natural text inMetadata)

/-- Milliseconds of the wall clock since 1970. -/
abbrev WallTime := Nat

/-- Appends a name to a path. -/
def joinPath (path name : String) : String :=
  if path = "" then name
  else if path.toList.getLast? = some '/' then path ++ name
  else path ++ "/" ++ name

structure Session where
  id : Nat
  started : WallTime
deriving DecidableEq, Repr

namespace Session

/-- The version written down with each session. -/
def version : String := "0.9.0"

def startInstant (s : Session) : Instant := .ofMilliseconds s.started

/-- The name of the folder of the day on which the session was opened. -/
def dayName (s : Session) : String := String.ofList s.startInstant.dateText

/-- The name of the session's own folder. -/
def folderName (s : Session) : String :=
  String.ofList (s.startInstant.dateText ++ '_' :: s.startInstant.clockText '.')

/-- The session's folder below the recording root. -/
def relativePath (s : Session) : String := joinPath s.dayName s.folderName

/-- The file name of the frame with a given number. -/
def frameName (number : Nat) (extension : String) : String :=
  String.ofList (padded 5 number) ++ "_frame." ++ extension

/-- The path of the frame with a given number. -/
def framePath (root : String) (s : Session) (number : Nat) (extension : String) : String :=
  joinPath (joinPath root s.relativePath) (frameName number extension)

/-! ## Texts -/

/-- The settings as `name = value` lines. -/
def describe (c : Settings) : String :=
  let line (name value : String) : String := name ++ " = " ++ value ++ "\n"
  let number := text inMetadata
  line "width" (toString c.width) ++ line "height" (toString c.height) ++
    line "offset_x" (toString c.offsetX) ++ line "offset_y" (toString c.offsetY) ++
    line "gain" (number c.gain) ++ line "gain_min" (number c.gainMin) ++
    line "gain_max" (number c.gainMax) ++ line "exposure" (number c.exposure) ++
    line "exposure_min" (number c.exposureMin) ++ line "exposure_max" (number c.exposureMax) ++
    line "rate" (number c.rate)

/-- The description of the session and of the camera with which it was opened. -/
def metadata (s : Session) (camera : Settings) : String :=
  "version = \"" ++ version ++ "\"\n" ++
  "session = " ++ toString s.id ++ "\n" ++
  "started = \"" ++ String.ofList s.startInstant.rfc3339 ++ "\"\n" ++
  "\n[camera]\n" ++ describe camera

/-- A line of the log: the frame's number, the wall clock, the date, and the
seconds since the first frame of the session. -/
def timestampLine (number : Nat) (now : Instant) (elapsed : Binary64) : List Char :=
  padded 5 number ++ ' ' :: now.clockText ':' ++ ' ' :: now.dateText ++
    ' ' :: Decimal.fixed 6 elapsed ++ ['\n']

end Session

end FrameServer
