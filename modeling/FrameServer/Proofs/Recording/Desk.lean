import Mathlib.Data.List.Perm.Basic
import FrameServer.Capture.Scripted
import FrameServer.Control.Station
import FrameServer.Recording.Logger
import FrameServer.Proofs.Recording.Archive

/-!
# FrameServer.Proofs.Recording.Desk — a station with the logger that drains it

Commands and drained frames come in any order, each of them dealt with before the
next one, and the recording root may be out of reach for any of them.

1. **Draining**: the job that a frame becomes, and what the drain then does.
2. **Desks**: what can happen to them, and runs.
-/

namespace FrameServer

/-! ## Draining -/

/-- The recording after a frame was drained: a pending snap is used up unless
recording is on. -/
def Recording.drained (r : Recording) : Recording :=
  { r with snapPending := r.enabled && r.snapPending }

/-- Recording is on, with a session for the frames. -/
structure Recording.Active (r : Recording) : Prop where
  enabled : r.enabled = true
  session : ∃ s, r.session = some s

theorem Recording.Active.drained {r : Recording} (h : r.Active) : r.drained.Active :=
  ⟨h.enabled, h.session⟩

theorem Recording.Active.withRoot {r : Recording} (h : r.Active) (root : Root) :
    Recording.Active { r with root } := ⟨h.enabled, h.session⟩

namespace Logger

variable (encoder : Encoder) (handOff : Bool) (now : WallTime) (frame : Frame)

/-- The job that a drained frame becomes, if it is to be recorded. -/
def jobFor? (r : Recording) (l : Logger) : Option Job :=
  if r.enabled || r.snapPending then r.session.map fun s => (l.assign frame s).1 else none

/-- One more frame was drained. -/
def drainedOne (l : Logger) : Logger :=
  { l with counters := { l.counters with drained := l.counters.drained + 1 } }

/-- One more frame was drained, and the drain is to write it. -/
def inlinedOne (numbering : Numbering) (l : Logger) : Logger :=
  { l with
    numbering
    counters := { l.drainedOne.counters with inlined := l.counters.inlined + 1 } }

/-- Taking a job out by its index leaves the others, in some order beside it. -/
theorem cons_eraseIdx_perm {jobs : List Job} {index : Nat} {job : Job}
    (hjob : jobs[index]? = some job) : (job :: jobs.eraseIdx index).Perm jobs := by
  obtain ⟨hlt, rfl⟩ := List.getElem?_eq_some_iff.mp hjob
  exact List.getElem_cons_eraseIdx_perm hlt

/-- The name of a job's file. -/
def Job.fileName (job : Job) : String := Session.frameName job.number encoder.extension

theorem Job.write_written (job : Job) (r : Recording) :
    ∃ root, (job.write encoder now r).2 = { r with root } ∧
      r.root.Written job.session (job.fileName encoder) root := by
  unfold Job.write
  dsimp only
  split
  · exact ⟨r.root, rfl, .refl _ _ _⟩
  · next content _ =>
    unfold Recording.storeFrame?
    split
    · next hstore =>
      split at hstore
      · cases hstore
      · exact ⟨r.root, rfl, .refl _ _ _⟩
    · next stored hstore =>
      split at hstore
      · cases hstore
        exact ⟨_, rfl, (Root.Written.store job.session (job.fileName encoder) content
          r.root).beside job.session (fun _ => rfl) fun _ => rfl⟩
      · cases hstore

theorem perform_written (job : Job) (l : Logger) (x : Exchange) :
    (perform encoder now job l x).1.numbering = l.numbering ∧
      (perform encoder now job l x).1.handed = l.handed ∧
      ∃ root, (perform encoder now job l x).2.recording = { x.recording with root } ∧
        x.recording.root.Written job.session (job.fileName encoder) root :=
  ⟨rfl, rfl, job.write_written encoder now x.recording⟩

/-- A job is passed on to a worker, or the drain writes it. -/
theorem dispatch_cases (job : Job) (l : Logger) (x : Exchange) :
    dispatch encoder handOff now job l x = ({ l with handed := l.handed ++ [job] }, x) ∨
      dispatch encoder handOff now job l x = perform encoder now job
        { l with counters := { l.counters with inlined := l.counters.inlined + 1 } } x := by
  unfold dispatch
  split
  · exact .inl rfl
  · exact .inr rfl

/-- Jobs that were counted as written, and those that workers have. -/
def accounted (l : Logger) : Nat := l.counters.logged + l.counters.errors + l.handed.length

/-- A job that is written is accounted for once, however that ends. -/
theorem perform_counters (job : Job) (l : Logger) (x : Exchange) :
    (perform encoder now job l x).1.counters.drained = l.counters.drained ∧
      (perform encoder now job l x).1.counters.inlined = l.counters.inlined ∧
      (perform encoder now job l x).1.accounted = l.accounted + 1 := by
  unfold perform accounted
  dsimp only
  generalize (job.write encoder now x.recording).1 = result
  cases result with
  | ok => exact ⟨rfl, rfl, by simp only [Counters.count]; omega⟩
  | error => exact ⟨rfl, rfl, by simp only [Counters.count]; omega⟩

/-- A frame that is to be recorded into a session is numbered, and its job is
passed on. -/
theorem handle_of_session {l : Logger} {x : Exchange} {s : Session}
    (hrecord : (x.recording.enabled || x.recording.snapPending) = true)
    (hsession : x.recording.session = some s) :
    handle encoder handOff now frame l x =
      dispatch encoder handOff now (l.assign frame s).1
        { l.drainedOne with numbering := (l.numbering.assign frame.header s.id).2 }
        { x with recording := x.recording.drained } := by
  rcases x with ⟨ring, ⟨path, root, enabled, pending, session, nextId⟩, cancelled⟩
  cases hsession
  cases enabled <;> cases pending
  · cases hrecord
  · rfl
  · rfl
  · rfl

/-- A frame that is to be recorded is lost without a session. -/
theorem handle_of_no_session {l : Logger} {x : Exchange}
    (hrecord : (x.recording.enabled || x.recording.snapPending) = true)
    (hsession : x.recording.session = none) :
    handle encoder handOff now frame l x =
      (l.drainedOne, { x with recording := x.recording.drained }) := by
  rcases x with ⟨ring, ⟨path, root, enabled, pending, session, nextId⟩, cancelled⟩
  cases hsession
  cases enabled <;> cases pending
  · cases hrecord
  · rfl
  · rfl
  · rfl

/-- A frame that is not to be recorded ends a row of numbers. -/
theorem handle_of_idle {l : Logger} {x : Exchange}
    (hrecord : (x.recording.enabled || x.recording.snapPending) = false) :
    handle encoder handOff now frame l x =
      ({ l.drainedOne with numbering := l.numbering.boundary }, x) := by
  rcases x with ⟨ring, ⟨path, root, enabled, pending, session, nextId⟩, cancelled⟩
  cases enabled <;> cases pending
  · rfl
  · cases hrecord
  · cases hrecord
  · cases hrecord

/-- What a drained frame comes to. The job that it became goes to a worker, or the drain
writes it; a frame that became none leaves the jobs of workers and the root. -/
inductive Passed (encoder : Encoder) (now : WallTime) (l : Logger) (x : Exchange) :
    Option Job → Logger → Exchange → Prop where
  | nothing (numbering : Numbering) :
      Passed encoder now l x none { l.drainedOne with numbering }
        { x with recording := x.recording.drained }
  | taken (job : Job) (numbering : Numbering) :
      Passed encoder now l x (some job)
        { l.drainedOne with numbering, handed := l.handed ++ [job] }
        { x with recording := x.recording.drained }
  | written (job : Job) (numbering : Numbering) :
      Passed encoder now l x (some job)
        (perform encoder now job (l.inlinedOne numbering)
          { x with recording := x.recording.drained }).1
        (perform encoder now job (l.inlinedOne numbering)
          { x with recording := x.recording.drained }).2

theorem frame_of_jobFor? {l : Logger} {r : Recording} {job : Job}
    (h : l.jobFor? frame r = some job) : job.frame = frame := by
  unfold jobFor? at h
  split at h
  · obtain ⟨s, -, rfl⟩ := Option.map_eq_some_iff.mp h
    rfl
  · cases h

/-- The job that a frame becomes, and no other, is passed on or written. -/
theorem handle_passed (l : Logger) (x : Exchange) :
    Passed encoder now l x (l.jobFor? frame x.recording)
      (handle encoder handOff now frame l x).1 (handle encoder handOff now frame l x).2 := by
  unfold jobFor?
  by_cases hrecord : (x.recording.enabled || x.recording.snapPending) = true
  · rw [if_pos hrecord]
    cases hsession : x.recording.session with
    | none =>
      rw [handle_of_no_session encoder handOff now frame hrecord hsession]
      exact .nothing l.numbering
    | some s =>
      rw [handle_of_session encoder handOff now frame hrecord hsession, Option.map_some]
      rcases dispatch_cases encoder handOff now (l.assign frame s).1
          { l.drainedOne with numbering := (l.numbering.assign frame.header s.id).2 }
          { x with recording := x.recording.drained } with htaken | hwritten
      · rw [htaken]
        exact .taken _ _
      · rw [hwritten]
        exact .written _ _
  · have hidle := Bool.eq_false_iff.mpr hrecord
    -- no snap is pending, so none is used up
    have hpending : (x.recording.enabled && x.recording.snapPending) = x.recording.snapPending := by
      rw [(Bool.or_eq_false_iff.mp hidle).2, Bool.and_false]
    have hdrained : x.recording.drained = x.recording := by rw [Recording.drained, hpending]
    have hnothing : Passed encoder now l x none _ _ := .nothing l.numbering.boundary
    rw [hdrained] at hnothing
    rw [if_neg hrecord, handle_of_idle encoder handOff now frame hidle]
    exact hnothing

namespace Passed

variable {encoder now} {l l' : Logger} {x x' : Exchange}

/-- Whatever becomes of a frame, it counts as drained. The drain stays where it stands, a
worker may take the frame's job, and only the recording changes around the logger. -/
theorem kept {job? : Option Job} (h : Passed encoder now l x job? l' x') :
    l'.phase = l.phase ∧ l'.counters.drained = l.counters.drained + 1 ∧
      (l'.handed = l.handed ∨ ∃ job, job? = some job ∧ l'.handed = l.handed ++ [job]) ∧
      x'.ring = x.ring ∧ x'.cancelled = x.cancelled := by
  cases h with
  | nothing numbering => exact ⟨rfl, rfl, .inl rfl, rfl, rfl⟩
  | taken job numbering => exact ⟨rfl, rfl, .inr ⟨job, rfl, rfl⟩, rfl, rfl⟩
  | written job numbering =>
    obtain ⟨hdrained, -, -⟩ := perform_counters encoder now job _ _
    exact ⟨rfl, hdrained, .inl rfl, rfl, rfl⟩

/-- A job is accounted for once, by the worker that has it or by the drain, and recording
goes on. -/
theorem recorded {job : Job} (h : Passed encoder now l x (some job) l' x')
    (hactive : x.recording.Active) :
    x'.recording.Active ∧ l'.accounted = l.accounted + 1 ∧
      (l'.handed = l.handed ++ [job] ∧ l'.counters.inlined = l.counters.inlined ∨
        l'.handed = l.handed ∧ l'.counters.inlined = l.counters.inlined + 1) := by
  cases h with
  | taken job numbering =>
    refine ⟨hactive.drained, ?_, .inl ⟨rfl, rfl⟩⟩
    simp only [accounted, List.length_append, List.length_singleton]
    rfl
  | written job numbering =>
    obtain ⟨-, hinlined, haccounted⟩ := perform_counters encoder now job _ _
    obtain ⟨root, hrecording, -⟩ := job.write_written encoder now x.recording.drained
    refine ⟨?_, haccounted, .inr ⟨rfl, hinlined⟩⟩
    change Recording.Active (job.write encoder now x.recording.drained).2
    rw [hrecording]
    exact hactive.drained.withRoot root

end Passed

/-- While recording is active, a drained frame becomes a job. -/
theorem jobFor?_of_active (l : Logger) {r : Recording} (hactive : r.Active) :
    ∃ job, l.jobFor? frame r = some job := by
  obtain ⟨s, hsession⟩ := hactive.session
  refine ⟨(l.assign frame s).1, ?_⟩
  rw [jobFor?, hactive.enabled, Bool.true_or, if_pos rfl, hsession, Option.map_some]

end Logger

/-! ## Desks -/

/-- Why the recording root is out of reach for a while. -/
inductive Outage where
  | missing
  | file
  | blocked (reason : String)
deriving DecidableEq, Repr

/-- What the path of the root leads to meanwhile. -/
def Outage.root : Outage → Root
  | missing => .missing
  | file => .file
  | blocked reason => .blocked reason

/-- What can happen to a desk. -/
inductive Act where
  | setRecording (on : Bool)
  | snap
  /-- A frame is drained; `handOff` if a worker is idle then. -/
  | drain (handOff : Bool) (frame : Frame)
  /-- A worker finishes the job with this index. -/
  | finish (index : Nat)
deriving DecidableEq, Repr

/-- An act at a moment of the wall clock, with or without the root in reach. -/
structure Event where
  act : Act
  now : WallTime
  outage : Option Outage
deriving DecidableEq, Repr

/-- What an event came to. -/
inductive Note where
  /-- Recording was to be switched on, and is on. -/
  | enabled
  /-- A snap was accepted and opened a session. -/
  | snapped (s : Session)
  /-- A frame was drained while recording was on or off, and became a job or not. -/
  | drained (frame : Frame) (on : Bool) (job : Option Logger.Job)
  | other
deriving DecidableEq, Repr

namespace Note

/-- The job that a frame became. -/
def job? : Note → Option Logger.Job
  | drained _ _ job => job
  | _ => none

/-- The frame that was drained. -/
def frame? : Note → Option Frame
  | drained frame _ _ => some frame
  | _ => none

/-- The session that a snap opened or a job was made for. -/
def session? : Note → Option Session
  | snapped s => some s
  | drained _ _ (some job) => some job.session
  | _ => none

end Note

/-- A station and the logger that drains its ring. -/
structure Desk (κ : Type) where
  station : Station κ
  logger : Logger

namespace Desk

variable {κ : Type}

def recording (d : Desk κ) : Recording := d.station.exchange.recording

theorem exchange_recording (d : Desk κ) : d.station.exchange.recording = d.recording := rfl

/-- A desk with a camera that does as it is told and no workers, which records into
an empty folder. -/
def scripted : Desk ScriptedCamera where
  station := .new (.new .blank [])
    ⟨.empty 1 1 1, ⟨"frames", .folder [] [], false, false, none, 1⟩, false⟩
  logger := .new 0 ⟨0⟩

/-- Puts something else where the path of the root leads. -/
def withRoot (root : Root) (d : Desk κ) : Desk κ :=
  { d with station := d.station.withRecording { d.recording with root } }

variable [Camera κ]

def act (encoder : Encoder) (now : WallTime) (d : Desk κ) : Act → Note × Desk κ
  | .setRecording on =>
    let (result, station) := d.station.setRecording on now
    match result with
    | .ok () => (if on then .enabled else .other, { d with station })
    | .error _ => (.other, { d with station })
  | .snap =>
    let (result, station) := d.station.snap now
    match result, station.exchange.recording.session with
    | .ok (), some s => (.snapped s, { d with station })
    | _, _ => (.other, { d with station })
  | .drain handOff frame =>
    let (logger, exchange) :=
      d.logger.handle encoder handOff now frame d.station.exchange
    (.drained frame d.recording.enabled (d.logger.jobFor? frame d.recording),
      ⟨{ d.station with exchange }, logger⟩)
  | .finish index =>
    match d.logger.move encoder now (.finish index) d.station.exchange with
    | none => (.other, d)
    | some (logger, exchange) => (.other, ⟨{ d.station with exchange }, logger⟩)

/-- The desk that an event finds: the root may be out of reach. -/
def during (outage : Option Outage) (d : Desk κ) : Desk κ :=
  match outage with
  | none => d
  | some outage => d.withRoot outage.root

/-- An event; a root that was out of reach is back afterwards as it was. -/
def step (encoder : Encoder) (d : Desk κ) (e : Event) : Note × Desk κ :=
  match e.outage with
  | none => d.act encoder e.now e.act
  | some outage =>
    let (note, d') := (d.withRoot outage.root).act encoder e.now e.act
    (note, d'.withRoot d.recording.root)

/-- Events one after the other, with what each of them came to. -/
def run (encoder : Encoder) : List Event → Desk κ → List Note × Desk κ
  | [], d => ([], d)
  | e :: later, d =>
    let (note, d) := d.step encoder e
    let (notes, d) := run encoder later d
    (note :: notes, d)

theorem run_cons (encoder : Encoder) (e : Event) (later : List Event) (d : Desk κ) :
    d.run encoder (e :: later) =
      ((d.step encoder e).1 :: ((d.step encoder e).2.run encoder later).1,
        ((d.step encoder e).2.run encoder later).2) := rfl

theorem step_note (encoder : Encoder) (d : Desk κ) (e : Event) :
    (d.step encoder e).1 = ((d.during e.outage).act encoder e.now e.act).1 := by
  unfold step during
  cases e.outage with
  | none => rfl
  | some outage => rfl

/-- What an event in the middle of a run came to. -/
theorem note_of_split (encoder : Encoder) (earlier : List Event) (e : Event) (later : List Event)
    (d : Desk κ) : (d.run encoder (earlier ++ e :: later)).1[earlier.length]? =
      some (((d.run encoder earlier).2.during e.outage).act encoder e.now e.act).1 := by
  induction earlier generalizing d with
  | nil => exact congrArg some (d.step_note encoder e)
  | cons first earlier ih => exact ih (d.step encoder first).2

end Desk

end FrameServer
