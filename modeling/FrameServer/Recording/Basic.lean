import FrameServer.Recording.Archive

/-!
# FrameServer.Recording.Basic — the recording switch, snaps and the session

While recording is on, every frame goes into the session that was opened when it
was switched on. A snap opens a session for the next frame alone and is possible
only while recording is off. A snap that cannot be taken is cancelled, and its
session is discarded.
-/

namespace FrameServer

structure Recording where
  /-- The path of the root as it was configured. -/
  path : String
  root : Root
  enabled : Bool
  snapPending : Bool
  /-- The session that frames go into. -/
  session : Option Session
  /-- The number of the next session; it is used up even if opening fails. -/
  nextId : Nat
deriving DecidableEq, Repr

namespace Recording

/-- Recording into a root, which must be a folder. -/
def new (path : String) (root : Root) : Except RecordingError Recording :=
  match root.check path with
  | .error e => .error e
  | .ok () => .ok ⟨path, root, false, false, none, 1⟩

/-! ## Opening -/

/-- Opens a new session in its own folder. -/
def openSession (camera : Settings) (now : WallTime) (r : Recording) :
    Except RecordingError Unit × Recording :=
  let r' := { r with nextId := r.nextId + 1 }
  match r.root.check r.path with
  | .error e => (.error e, r')
  | .ok () =>
    let session : Session := ⟨r.nextId, r.root.freshStart now⟩
    (.ok (), { r' with root := r.root.create session camera, session := some session })

/-- Switches recording on or off; switching it on opens a session. -/
def setEnabled (on : Bool) (camera : Settings) (now : WallTime) (r : Recording) :
    Except RecordingError Unit × Recording :=
  if !on then (.ok (), { r with enabled := false })
  else if r.enabled then (.ok (), r)
  else match r.openSession camera now with
    | (.error e, r) => (.error e, r)
    | (.ok (), r) => (.ok (), { r with enabled := true })

/-! ## Snaps -/

/-- Opens a session for the next frame. -/
def requestSnap (camera : Settings) (now : WallTime) (r : Recording) :
    Except RecordingError Unit × Recording :=
  if r.enabled then (.error .snapWhileRecording, r)
  else if r.snapPending then (.error .snapPending, r)
  else match r.openSession camera now with
    | (.error e, r) => (.error e, r)
    | (.ok (), r) => (.ok (), { r with snapPending := true })

/-- Whether a snap is pending; if so, it no longer is. -/
def takeSnap (r : Recording) : Bool × Recording := (r.snapPending, { r with snapPending := false })

/-- Withdraws a pending snap and discards the session with its folder. -/
def cancelSnap (r : Recording) : Recording :=
  if !r.snapPending then r
  else match r.session with
    | none => { r with snapPending := false }
    | some s => { r with snapPending := false, session := none, root := r.root.remove s }

/-! ## Writing -/

/-- Appends a line to the log of a session. A log whose folder is gone takes the
line as well, but nobody sees it. -/
def appendTimestamp (s : Session) (number : Nat) (elapsed : Binary64) (now : WallTime)
    (r : Recording) : Recording :=
  let line := String.ofList (Session.timestampLine number (.ofMilliseconds now) elapsed)
  { r with root := r.root.update s fun f => { f with timestamps := f.timestamps ++ [line] } }

/-- Puts a frame into the folder of a session, if that is there. -/
def storeFrame? (s : Session) (name : String) (content : Content) (r : Recording) :
    Option Recording :=
  if r.root.hasSession s then some { r with root := r.root.update s (·.store name content) }
  else none

/-! ## What others do to the root -/

/-- The root goes away with all that is in it. -/
def loseRoot (r : Recording) : Recording := { r with root := .missing }

/-- An empty folder takes the place of a missing root. -/
def restoreRoot (r : Recording) : Recording :=
  match r.root with
  | .missing => { r with root := .folder [] [] }
  | _ => r

/-- A file takes the place of the root. -/
def replaceRoot (r : Recording) : Recording := { r with root := .file }

end Recording

end FrameServer
