import FrameServer.Exchange
import FrameServer.Recording.ImageFile
import FrameServer.Recording.Numbering

/-!
# FrameServer.Recording.Logger — draining the ring into the recording

A drain takes every frame out of the ring in order. A frame that is to be
recorded becomes a job; it is handed to a worker if one is idle, and otherwise
the drain writes it itself, so that no frame is lost.

1. **Jobs** and the counters.
2. **The logger**: the drain with its jobs in other hands.
3. **Frames**: what the drain does with one.
4. **Moves**: the drain looks for a request to shut down, waits for a frame, and
   takes it. Once it sees the request it ends, after emptying the ring if
   recording is on. Workers finish their jobs in any order. A schedule is a list
   of moves.
-/

namespace FrameServer

namespace Logger

/-! ## Jobs -/

/-- A frame on its way to the disk. -/
structure Job where
  frame : Frame
  number : Nat
  /-- Seconds since the frame with number 1. -/
  elapsed : Binary64
  session : Session
deriving DecidableEq, Repr

structure Counters where
  drained : Nat
  logged : Nat
  /-- Frames that the drain wrote because no worker was idle. -/
  inlined : Nat
  errors : Nat
deriving DecidableEq, Repr, Inhabited

/-- Nothing was counted yet. -/
def Counters.zero : Counters := ⟨0, 0, 0, 0⟩

/-- Writes the image of a job, then its line in the log. -/
def Job.write (encoder : Encoder) (now : WallTime) (job : Job) (r : Recording) :
    Except RecordingError Unit × Recording :=
  let path := job.session.framePath r.path job.number encoder.extension
  match encoder.encode path job.number job.frame.header job.frame.payload with
  | .error e => (.error e, r)
  | .ok content =>
    match r.storeFrame? job.session (Session.frameName job.number encoder.extension) content with
    | none => (.error (.encode path (.codec "No such file or directory (os error 2)")), r)
    | some r => (.ok (), r.appendTimestamp job.session job.number job.elapsed now)

/-- Counts how writing a job ended. -/
def Counters.count (c : Counters) : Except RecordingError Unit → Counters
  | .ok () => { c with logged := c.logged + 1 }
  | .error _ => { c with errors := c.errors + 1 }

/-- Where the drain stands. -/
inductive Phase where
  /-- About to look whether it is to end. -/
  | checking
  /-- Waiting for a frame. -/
  | waiting
  /-- Emptying the ring before it ends. -/
  | flushing
  | ended
deriving DecidableEq, Repr

end Logger

/-! ## The logger -/

structure Logger where
  /-- How many jobs can be in the hands of workers. -/
  workers : Nat
  ticksPerSecond : Binary64
  phase : Logger.Phase
  numbering : Numbering
  counters : Logger.Counters
  /-- The jobs that workers have taken and not finished yet. -/
  handed : List Logger.Job
deriving Repr

namespace Logger

def new (workers : Nat) (ticksPerSecond : Binary64) : Logger :=
  ⟨workers, ticksPerSecond, .checking, .new, .zero, []⟩

/-- The drain has ended and so have the workers. -/
def isDone (l : Logger) : Bool := l.phase = .ended && l.handed.isEmpty

/-- Writes a job and counts it. -/
def perform (encoder : Encoder) (now : WallTime) (job : Job) (l : Logger) (x : Exchange) :
    Logger × Exchange :=
  let (result, recording) := job.write encoder now x.recording
  ({ l with counters := l.counters.count result }, { x with recording })

/-! ## Frames -/

/-- The job that a frame of a session becomes. -/
def assign (frame : Frame) (session : Session) (l : Logger) : Job × Logger :=
  let ((number, ticks), numbering) := l.numbering.assign frame.header session.id
  (⟨frame, number, .ofNat ticks / l.ticksPerSecond, session⟩, { l with numbering })

/-- Passes a job on: to a worker if `handOff` finds one idle, else to the drain. -/
def dispatch (encoder : Encoder) (handOff : Bool) (now : WallTime) (job : Job) (l : Logger)
    (x : Exchange) : Logger × Exchange :=
  if handOff && l.handed.length < l.workers then ({ l with handed := l.handed ++ [job] }, x)
  else
    let counters := { l.counters with inlined := l.counters.inlined + 1 }
    perform encoder now job { l with counters } x

/-- Deals with a frame from the ring. It is recorded while recording is on, and
once after a snap. -/
def handle (encoder : Encoder) (handOff : Bool) (now : WallTime) (frame : Frame) (l : Logger)
    (x : Exchange) : Logger × Exchange :=
  let l := { l with counters := { l.counters with drained := l.counters.drained + 1 } }
  let (snap, recording) :=
    if x.recording.enabled then (false, x.recording) else x.recording.takeSnap
  let x := { x with recording }
  if !recording.enabled && !snap then ({ l with numbering := l.numbering.boundary }, x)
  else match recording.session with
    | none => (l, x)
    | some session =>
      let (job, l) := l.assign frame session
      dispatch encoder handOff now job l x

/-! ## Moves -/

inductive Move where
  /-- The drain looks for a request to shut down. -/
  | check
  /-- The drain takes the oldest frame; `handOff` if a worker is idle then. -/
  | take (handOff : Bool)
  /-- The drain finds the ring empty. -/
  | timeOut
  /-- A worker finishes the job with this index. -/
  | finish (index : Nat)
deriving DecidableEq, Repr

/-- Makes a move if it is enabled. -/
def move (encoder : Encoder) (now : WallTime) (m : Move) (l : Logger) (x : Exchange) :
    Option (Logger × Exchange) :=
  match m with
  | .check =>
    if l.phase ≠ .checking then none
    else
      let phase :=
        if !x.cancelled then Phase.waiting
        else if x.recording.enabled then .flushing
        else .ended
      some ({ l with phase }, x)
  | .take handOff =>
    if l.phase ≠ .waiting ∧ l.phase ≠ .flushing then none
    else match x.ring.get? with
      | (none, _) => none
      | (some frame, ring) =>
        let phase := if l.phase = .flushing then Phase.flushing else .checking
        some (handle encoder handOff now frame { l with phase } { x with ring })
  | .timeOut =>
    if x.ring.isEmpty then
      match l.phase with
      | .waiting => some ({ l with phase := .checking }, x)
      | .flushing => some ({ l with phase := .ended }, x)
      | _ => none
    else none
  | .finish index =>
    match l.handed[index]? with
    | none => none
    | some job => some (perform encoder now job { l with handed := l.handed.eraseIdx index } x)

/-- Makes those moves of a schedule that are enabled. -/
def run (encoder : Encoder) (now : WallTime) (schedule : List Move) (l : Logger) (x : Exchange) :
    Logger × Exchange :=
  schedule.foldl (fun (l, x) m => (move encoder now m l x).getD (l, x)) (l, x)

/-- A schedule in which `count` frames are taken, each of them written before the
next one is taken. -/
def promptly (count : Nat) : List Move :=
  .check :: (List.replicate count [.take true, .finish 0, .check]).flatten

/-- A schedule in which a drain that was asked to end does so. -/
def lastMoves (count : Nat) : List Move :=
  [.check, .timeOut] ++ promptly count ++ [.timeOut]

end Logger

end FrameServer
