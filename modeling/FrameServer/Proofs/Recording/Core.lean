import FrameServer.Proofs.Recording.Desk

/-!
# FrameServer.Proofs.Recording.Core — what an event can do

What an event can do to the switches, the session and the numbering is said once,
as a relation between cores, and what it can do to jobs and images as another one;
everything about runs is derived from these two.

1. **Cores**: the part of a desk that the numbers of frames depend on.
2. **Files**: the jobs in other hands, and the images.
3. **Steps**: every event is a step of cores and of files.
-/

namespace FrameServer

/-! ## Cores -/

/-- What the numbers of frames depend on. -/
structure Core where
  enabled : Bool
  pending : Bool
  session : Option Session
  nextId : Nat
  /-- The sessions that have a folder below the root. -/
  known : List Session
  numbering : Numbering
deriving DecidableEq, Repr

/-- The core of a recording and the numbering of its frames. -/
def Core.of (r : Recording) (n : Numbering) : Core :=
  ⟨r.enabled, r.snapPending, r.session, r.nextId, r.root.known, n⟩

def Desk.core {κ : Type} (d : Desk κ) : Core := .of d.recording d.logger.numbering

namespace Core

/-- A frame that is drained now is to be recorded. -/
def records (c : Core) : Bool := c.enabled || c.pending

/-- The session has the next number, and a moment that no other session has. -/
structure Fresh (c : Core) (s : Session) : Prop where
  id_eq : s.id = c.nextId
  started_ne : ∀ t ∈ c.known, t.started ≠ s.started

/-- Opens a session. -/
def enter (s : Session) (c : Core) : Core :=
  { c with session := some s, nextId := c.nextId + 1, known := c.known ++ [s] }

/-- Numbers a frame of a session; a pending snap is used up unless recording is on. -/
def number (frame : Frame) (s : Session) (c : Core) : Core :=
  { c with
    pending := c.enabled && c.pending
    numbering := (c.numbering.assign frame.header s.id).2 }

/-- What an event can do to a core, and what it comes to then. -/
inductive Step (c : Core) : Note → Core → Prop where
  | begun (s : Session) (hoff : c.enabled = false) (hs : c.Fresh s) :
      Step c .enabled { c.enter s with enabled := true }
  | stillOn (hon : c.enabled = true) : Step c .enabled c
  | snapped (s : Session) (hidle : c.records = false) (hs : c.Fresh s) :
      Step c (.snapped s) { c.enter s with pending := true }
  | cancelled (hidle : c.records = false) :
      Step c .other { c with pending := false, session := none, nextId := c.nextId + 1 }
  | failed : Step c .other { c with nextId := c.nextId + 1 }
  | ended : Step c .other { c with enabled := false }
  | unchanged : Step c .other c
  | recorded (frame : Frame) (s : Session) (elapsed : Binary64) (hrecord : c.records = true)
      (hs : c.session = some s) :
      Step c
        (.drained frame c.enabled
          (some ⟨frame, (c.numbering.assign frame.header s.id).1.1, elapsed, s⟩))
        (c.number frame s)
  | lost (frame : Frame) (hrecord : c.records = true) (hs : c.session = none) :
      Step c (.drained frame c.enabled none) { c with pending := c.enabled && c.pending }
  | skipped (frame : Frame) (hidle : c.records = false) :
      Step c (.drained frame false none) { c with numbering := c.numbering.boundary }

theorem upcoming_fresh (now : WallTime) (r : Recording) (n : Numbering) :
    (Core.of r n).Fresh (r.upcoming now) :=
  ⟨rfl, fun _ ht => Root.freshStart_ne now ht⟩

theorem of_opened (camera : Settings) (now : WallTime) {r : Recording}
    (hfolder : r.root.isFolder = true) (n : Numbering) :
    Core.of (r.opened camera now) n = (Core.of r n).enter (r.upcoming now) := by
  have hknown := Root.known_create hfolder (r.upcoming now) camera
  simp only [of, enter, Recording.opened, hknown]

/-- Switching recording on in a folder is a step. -/
theorem step_begun (camera : Settings) (now : WallTime) {r : Recording}
    (hfolder : r.root.isFolder = true) (hoff : r.enabled = false) (n : Numbering) :
    Step (of r n) .enabled (of { r.opened camera now with enabled := true } n) := by
  have hstep := Step.begun (r.upcoming now) hoff (upcoming_fresh now r n)
  rw [← of_opened camera now hfolder n] at hstep
  exact hstep

/-- Accepting a snap in a folder is a step. -/
theorem step_snapped (camera : Settings) (now : WallTime) {r : Recording}
    (hfolder : r.root.isFolder = true) (n : Numbering) (hidle : (of r n).records = false) :
    Step (of r n) (.snapped (r.upcoming now))
      (of { r.opened camera now with snapPending := true } n) := by
  have hstep := Step.snapped (r.upcoming now) hidle (upcoming_fresh now r n)
  rw [← of_opened camera now hfolder n] at hstep
  exact hstep

/-- The notes that lead from one core to another, newest last. -/
inductive Run (start : Core) : List Note → Core → Prop where
  | nil : Run start [] start
  | snoc {notes : List Note} {c c' : Core} {note : Note} (h : Run start notes c)
      (hstep : Step c note c') : Run start (notes ++ [note]) c'

/-- A run goes through a core at each of its notes. -/
theorem Run.split {start c : Core} {before after : List Note} {note : Note}
    (h : Run start (before ++ note :: after) c) :
    ∃ b a, Run start before b ∧ Step b note a ∧ Run a after c := by
  generalize hnotes : before ++ note :: after = notes at h
  induction h generalizing after with
  | nil => simp at hnotes
  | @snoc earlier c c' last hrun hstep ih =>
    -- the note at hand is the last one, or the induction has found its place before
    rcases List.eq_nil_or_concat after with hnil | ⟨front, latest, hafter⟩
    · subst hnil
      obtain ⟨hbefore, hlast⟩ := List.append_inj' hnotes rfl
      cases hlast
      subst hbefore
      exact ⟨c, c', hrun, hstep, .nil⟩
    · subst hafter
      rw [List.concat_eq_append, ← List.cons_append, ← List.append_assoc] at hnotes
      obtain ⟨hearlier, hlast⟩ := List.append_inj' hnotes rfl
      cases hlast
      obtain ⟨b, a, hbefore, hnote, hrest⟩ := ih hearlier
      rw [List.concat_eq_append]
      exact ⟨b, a, hbefore, hnote, hrest.snoc hstep⟩

/-- A step without any folder in reach is a step whatever folders there are. -/
theorem Step.withKnown {c c' : Core} {note : Note} (h : Step { c with known := [] } note c')
    (hknown : c'.known = []) : Step c note { c' with known := c.known } := by
  cases h with
  | begun s hoff hs => cases hknown
  | stillOn hon => exact .stillOn hon
  | snapped s hidle hs => cases hknown
  | cancelled hidle => exact .cancelled hidle
  | failed => exact .failed
  | ended => exact .ended
  | unchanged => exact .unchanged
  | recorded frame s elapsed hrecord hs => exact .recorded frame s elapsed hrecord hs
  | lost frame hrecord hs => exact .lost frame hrecord hs
  | skipped frame hidle => exact .skipped frame hidle

end Core

/-! ## Files -/

/-- What an event can do to the jobs that workers have and to the images. -/
inductive Files {κ : Type} (encoder : Encoder) (d : Desk κ) (note : Note) (d' : Desk κ) :
    Prop where
  | still (hhanded : d'.logger.handed = d.logger.handed)
      (hroot : ∀ {s name content},
        d'.recording.root.Holds s name content ↔ d.recording.root.Holds s name content)
  | passedOn (job : Logger.Job) (hnote : note.job? = some job)
      (hhanded : d'.logger.handed = d.logger.handed ++ [job])
      (hroot : d'.recording.root = d.recording.root)
  | written (job : Logger.Job) (hnote : note.job? = some job)
      (hhanded : d'.logger.handed = d.logger.handed)
      (hroot : d.recording.root.Written job.session (job.fileName encoder) d'.recording.root)
  | finished (index : Nat) (job : Logger.Job) (hjob : d.logger.handed[index]? = some job)
      (hhanded : d'.logger.handed = d.logger.handed.eraseIdx index)
      (hroot : d.recording.root.Written job.session (job.fileName encoder) d'.recording.root)

/-- A root that was out of reach is as it was. -/
theorem Files.withRoot {κ : Type} {encoder : Encoder} {d d' : Desk κ} {note : Note}
    {root : Root} (h : Files encoder (d.withRoot root) note d') :
    Files encoder d note (d'.withRoot d.recording.root) := by
  cases h with
  | still hhanded hroot => exact .still hhanded Iff.rfl
  | passedOn job hnote hhanded hroot => exact .passedOn job hnote hhanded rfl
  -- a job that was written while the root was out of reach has left no image
  | written job hnote hhanded hroot => exact .still hhanded Iff.rfl
  | finished index job hjob hhanded hroot =>
    exact .finished index job hjob hhanded (.refl _ _ _)

/-! ## Steps -/

namespace Desk

variable {κ : Type} (encoder : Encoder) (d : Desk κ)

/-- What an act does: a step of cores and of files, which leaves a root that is no
folder as it is. -/
structure Follows (note : Note) (d' : Desk κ) : Prop where
  core : Core.Step d.core note d'.core
  files : Files encoder d note d'
  still : d.recording.root.isFolder = false → d'.recording.root = d.recording.root

variable {encoder d}

/-- An act that does nothing to the root. -/
theorem Follows.idle {note : Note} {d' : Desk κ} (hcore : Core.Step d.core note d'.core)
    (hhanded : d'.logger.handed = d.logger.handed)
    (hroot : d'.recording.root = d.recording.root) : Follows encoder d note d' :=
  ⟨hcore, .still hhanded (by rw [hroot]), fun _ => hroot⟩

/-- An act that opens a session. -/
theorem Follows.opened {note : Note} {d' : Desk κ} {s : Session} {camera : Settings}
    (hfolder : d.recording.root.isFolder = true) (hcore : Core.Step d.core note d'.core)
    (hhanded : d'.logger.handed = d.logger.handed)
    (hroot : d'.recording.root = d.recording.root.create s camera) :
    Follows encoder d note d' := by
  refine ⟨hcore, .still hhanded ?_, fun h => ?_⟩
  · rw [hroot]
    exact Root.holds_create camera
  · rw [hfolder] at h
    cases h

/-- The core of a recording whose root was only written into. -/
theorem of_written {r : Recording} {root : Root} {s : Session} {name : String}
    (h : r.root.Written s name root) (n : Numbering) : Core.of { r with root } n = Core.of r n := by
  rw [Core.of, h.known_eq, Core.of]

/-- An act that passes a job on. -/
theorem Follows.passedOn {note : Note} {d' : Desk κ} {r : Recording} {n : Numbering}
    {job : Logger.Job} (hnote : note.job? = some job)
    (hhanded : d'.logger.handed = d.logger.handed ++ [job]) (hroot : r.root = d.recording.root)
    (hnumbering : d'.logger.numbering = n) (hrecording : d'.recording = r)
    (hstep : Core.Step d.core note (.of r n)) : Follows encoder d note d' := by
  subst hnumbering hrecording
  exact ⟨hstep, .passedOn job hnote hhanded hroot, fun _ => hroot⟩

/-- An act that writes a frame of a job, if anything. -/
theorem Follows.written {note : Note} {d' : Desk κ} {r : Recording} {n : Numbering} {root : Root}
    {job : Logger.Job} (hroot : r.root = d.recording.root) (hnumbering : d'.logger.numbering = n)
    (hrecording : d'.recording = { r with root })
    (hwritten : r.root.Written job.session (job.fileName encoder) root)
    (hstep : Core.Step d.core note (.of r n))
    (hfiles : d.recording.root.Written job.session (job.fileName encoder) d'.recording.root →
      Files encoder d note d') : Follows encoder d note d' := by
  have hafter : d'.recording.root = root := congrArg Recording.root hrecording
  refine ⟨?_, hfiles ?_, ?_⟩
  · rw [← of_written hwritten, ← hrecording, ← hnumbering] at hstep
    exact hstep
  · rw [hafter, ← hroot]
    exact hwritten
  · rw [hafter, ← hroot]
    exact hwritten.still

variable [Camera κ] (encoder) (now : WallTime) (d)

theorem act_setRecording (on : Bool) :
    Follows encoder d (d.act encoder now (.setRecording on)).1
      (d.act encoder now (.setRecording on)).2 := by
  cases on with
  | false => exact .idle .ended rfl rfl
  | true =>
    by_cases hon : d.recording.enabled = true
    · -- recording goes on in its session
      have hset : d.recording.setEnabled true d.station.settings now = (.ok (), d.recording) := by
        simp [Recording.setEnabled, hon]
      simp only [act, Station.setRecording, exchange_recording, hset]
      exact .idle (.stillOn hon) rfl rfl
    · have hoff : d.recording.enabled = false := Bool.eq_false_iff.mpr hon
      rcases d.recording.setEnabled_eq d.station.settings now hoff with
        ⟨hfolder, hset⟩ | ⟨hfolder, e, hset⟩
      · simp only [act, Station.setRecording, exchange_recording, hset]
        exact .opened hfolder (Core.step_begun d.station.settings now hfolder hoff _) rfl rfl
      · simp only [act, Station.setRecording, exchange_recording, hset]
        exact .idle .failed rfl rfl

theorem act_snap : Follows encoder d (d.act encoder now .snap).1 (d.act encoder now .snap).2 := by
  by_cases hbusy : d.recording.enabled = true ∨ d.recording.snapPending = true
  · obtain ⟨e, hsnap⟩ := d.recording.requestSnap_refused d.station.settings now hbusy
    simp only [act, Station.snap, exchange_recording, hsnap]
    exact .idle .unchanged rfl rfl
  · rw [not_or, Bool.not_eq_true, Bool.not_eq_true] at hbusy
    have hidle : d.core.records = false := Bool.or_eq_false_iff.mpr hbusy
    rcases d.recording.requestSnap_eq d.station.settings now hbusy.1 hbusy.2 with
      ⟨hfolder, hsnap⟩ | ⟨hfolder, e, hsnap⟩
    · rcases htrigger : Camera.trigger d.station.camera with ⟨_ | _, camera⟩
      · -- the camera refuses, and the session that was just opened is discarded
        have hcancel := d.recording.cancelSnap_opened d.station.settings now
        simp only [act, Station.snap, exchange_recording, hsnap, Station.withRecording, htrigger,
          hcancel]
        exact .idle (.cancelled hidle) rfl rfl
      · simp only [act, Station.snap, exchange_recording, hsnap, Station.withRecording, htrigger]
        exact .opened hfolder (Core.step_snapped d.station.settings now hfolder _ hidle) rfl rfl
    · simp only [act, Station.snap, exchange_recording, hsnap]
      exact .idle .failed rfl rfl

theorem act_drain (handOff : Bool) (frame : Frame) :
    Follows encoder d (d.act encoder now (.drain handOff frame)).1
      (d.act encoder now (.drain handOff frame)).2 := by
  simp only [act, Logger.jobFor?]
  by_cases hrecord : (d.recording.enabled || d.recording.snapPending) = true
  · cases hsession : d.recording.session with
    | none =>
      rw [Logger.handle_of_no_session encoder handOff now frame hrecord hsession, if_pos hrecord]
      exact .idle (.lost frame hrecord hsession) rfl rfl
    | some s =>
      rw [Logger.handle_of_session encoder handOff now frame hrecord hsession, if_pos hrecord]
      -- whoever writes the image, the core depends on the numbering alone
      have hstep := Core.Step.recorded (c := d.core) frame s
        (d.logger.assign frame s).1.elapsed hrecord hsession
      rcases Logger.dispatch_cases encoder handOff now (d.logger.assign frame s).1
          { d.logger.drainedOne with numbering := (d.logger.numbering.assign frame.header s.id).2 }
          { d.station.exchange with recording := d.station.exchange.recording.drained }
        with htaken | hwritten
      · rw [htaken]
        exact .passedOn (r := d.recording.drained) rfl rfl rfl rfl rfl hstep
      · rw [hwritten]
        obtain ⟨root, hrecording, hroot⟩ :=
          (d.logger.assign frame s).1.write_written encoder now d.recording.drained
        exact .written (r := d.recording.drained) rfl rfl hrecording hroot hstep
          fun h => .written _ rfl rfl h
  · have hidle : (d.recording.enabled || d.recording.snapPending) = false :=
      Bool.eq_false_iff.mpr hrecord
    rw [Logger.handle_of_idle encoder handOff now frame hidle, if_neg hrecord,
      (Bool.or_eq_false_iff.mp hidle).1]
    exact .idle (.skipped frame hidle) rfl rfl

theorem act_finish (index : Nat) :
    Follows encoder d (d.act encoder now (.finish index)).1
      (d.act encoder now (.finish index)).2 := by
  simp only [act, Logger.move]
  cases hjob : d.logger.handed[index]? with
  | none => exact .idle .unchanged rfl rfl
  | some job =>
    obtain ⟨hnumbering, hhanded, root, hrecording, hwritten⟩ :=
      Logger.perform_written encoder now job
        { d.logger with handed := d.logger.handed.eraseIdx index } d.station.exchange
    exact .written (r := d.recording) rfl hnumbering hrecording hwritten .unchanged
      fun h => .finished index job hjob hhanded h

theorem act_follows (a : Act) :
    Follows encoder d (d.act encoder now a).1 (d.act encoder now a).2 := by
  cases a with
  | setRecording on => exact d.act_setRecording encoder now on
  | snap => exact d.act_snap encoder now
  | drain handOff frame => exact d.act_drain encoder now handOff frame
  | finish index => exact d.act_finish encoder now index

/-- Every event is a step of cores, also while the root is out of reach. -/
theorem step_core (e : Event) :
    Core.Step d.core (d.step encoder e).1 (d.step encoder e).2.core := by
  unfold step
  cases e.outage with
  | none => exact (d.act_follows encoder e.now e.act).core
  | some outage =>
    have hout : outage.root.isFolder = false := by cases outage <;> rfl
    have hfollows := (d.withRoot outage.root).act_follows encoder e.now e.act
    have hcore : (d.withRoot outage.root).core = { d.core with known := [] } := by
      rw [← Root.known_eq_nil hout]
      rfl
    -- nothing was opened, so the step is one whatever folders there are in the root
    have hstep := hfollows.core
    rw [hcore] at hstep
    refine hstep.withKnown ?_
    exact (congrArg Root.known (hfollows.still hout)).trans (Root.known_eq_nil hout)

/-- Every event is a step of files. -/
theorem step_files (e : Event) : Files encoder d (d.step encoder e).1 (d.step encoder e).2 := by
  unfold step
  cases e.outage with
  | none => exact (d.act_follows encoder e.now e.act).files
  | some outage => exact ((d.withRoot outage.root).act_follows encoder e.now e.act).files.withRoot

/-- What happens in a run is a run of cores. -/
theorem run_core {start : Core} {past : List Note} (events : List Event) {d : Desk κ}
    (h : Core.Run start past d.core) :
    Core.Run start (past ++ (d.run encoder events).1) (d.run encoder events).2.core := by
  induction events generalizing past d with
  | nil =>
    rw [run, List.append_nil]
    exact h
  | cons e later ih =>
    have hlater := ih (h.snoc (d.step_core encoder e))
    rw [List.append_assoc] at hlater
    exact hlater

end Desk

end FrameServer
