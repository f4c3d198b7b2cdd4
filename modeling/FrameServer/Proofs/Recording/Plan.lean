import FrameServer.Proofs.Recording.Bench
import FrameServer.Proofs.Recording.Fill

/-!
# FrameServer.Proofs.Recording.Plan — the part of a bench that no worker changes

Which frames become jobs, with which numbers and in which sessions, depends on the
calls and the drained frames alone, whoever writes the jobs and whenever that is. What
happens to a plan is a change of cores as it is at a desk. So, as long as the frames have
increasing numbers of their own, each job has a place of its own; and the folders of the
sessions of jobs are empty but for what is written by them.

1. **Plans** and their steps.
2. **Changes**: what an event can do to a plan.
3. **Sound plans**: the invariant, and what keeps it.
-/

namespace FrameServer

open Logger (Job)

/-! ## Plans -/

/-- The recording and the numbering of a bench, without anything written, and what became
of the drained frames. -/
structure Plan where
  recording : Recording
  numbering : Numbering
  ticksPerSecond : Binary64
  /-- A note for each call and each drained frame. -/
  notes : List Note

namespace Plan

def core (p : Plan) : Core := .of p.recording p.numbering

/-- The jobs that drained frames became, in the order of the frames. -/
def jobs (p : Plan) : List Job := jobsOf p.notes

/-- The frames that were drained. -/
def frames (p : Plan) : List Frame := framesOf p.notes

/-- The job that a frame of a session becomes now. -/
def job (frame : Frame) (s : Session) (p : Plan) : Job where
  frame
  number := (p.numbering.assign frame.header s.id).1.1
  elapsed := .ofNat (p.numbering.assign frame.header s.id).1.2 / p.ticksPerSecond
  session := s

/-- A call to the recording, whatever it comes to. -/
def call (outage : Option Outage) (c : Recording.Call) (p : Plan) : Plan :=
  { p with recording := p.recording.callDuring outage c, notes := p.notes ++ [.other] }

def drain (frame : Frame) (p : Plan) : Plan :=
  if p.recording.records then
    match p.recording.session with
    | none =>
      { p with
        recording := p.recording.drained
        notes := p.notes ++ [.drained frame p.recording.enabled none] }
    | some s =>
      { p with
        recording := p.recording.drained
        numbering := (p.numbering.assign frame.header s.id).2
        notes := p.notes ++ [.drained frame p.recording.enabled (some (p.job frame s))] }
  else
    { p with
      numbering := p.numbering.boundary
      notes := p.notes ++ [.drained frame false none] }

def step (p : Plan) : Bench.Event → Plan
  | .call c outage => p.call outage c
  | .drain _ _ frame => p.drain frame
  | .finish _ _ => p

variable {p p' : Plan}

theorem jobs_call (outage : Option Outage) (c : Recording.Call) (p : Plan) :
    (p.call outage c).jobs = p.jobs := jobsOf_of_no_job rfl

theorem drain_of_idle (frame : Frame) (hrecords : p.recording.records = false) :
    p.drain frame =
      { p with
        numbering := p.numbering.boundary
        notes := p.notes ++ [.drained frame false none] } :=
  if_neg (Bool.eq_false_iff.mp hrecords)

theorem drain_of_no_session (frame : Frame) (hrecords : p.recording.records = true)
    (hs : p.recording.session = none) :
    p.drain frame =
      { p with
        recording := p.recording.drained
        notes := p.notes ++ [.drained frame p.recording.enabled none] } := by
  rw [drain, if_pos hrecords, hs]

theorem drain_of_session (frame : Frame) {s : Session} (hrecords : p.recording.records = true)
    (hs : p.recording.session = some s) :
    p.drain frame =
      { p with
        recording := p.recording.drained
        numbering := (p.numbering.assign frame.header s.id).2
        notes := p.notes ++ [.drained frame p.recording.enabled (some (p.job frame s))] } := by
  rw [drain, if_pos hrecords, hs]

/-- A frame that is not recorded becomes no job. -/
theorem jobs_drain_of_none (frame : Frame)
    (hnone : p.recording.records = false ∨ p.recording.session = none) :
    (p.drain frame).jobs = p.jobs := by
  by_cases hrecords : p.recording.records = true
  · have hs := hnone.resolve_left ((Bool.not_eq_false _).mpr hrecords)
    rw [drain_of_no_session frame hrecords hs]
    exact jobsOf_of_no_job rfl
  · rw [drain_of_idle frame (Bool.eq_false_iff.mpr hrecords)]
    exact jobsOf_of_no_job rfl

theorem jobs_drain_of_session (frame : Frame) {s : Session} (hrecords : p.recording.records = true)
    (hs : p.recording.session = some s) : (p.drain frame).jobs = p.jobs ++ [p.job frame s] := by
  rw [drain_of_session frame hrecords hs]
  exact jobsOf_snoc _ _

/-! ## Changes -/

/-- A change of cores with its note, and every folder was there before or is empty. -/
structure Changed (p : Plan) (note : Note) (p' : Plan) : Prop where
  notes : p'.notes = p.notes ++ [note]
  core : Core.Change p.core note p'.core
  folders : ∀ f ∈ p'.recording.root.sessions,
    f ∈ p.recording.root.sessions ∨ f.frames = [] ∧ f.timestamps = []

theorem call_changed (outage : Option Outage) (c : Recording.Call) (p : Plan) :
    Changed p .other (p.call outage c) := by
  have hturned := p.recording.turned_callDuring outage c
  unfold call
  generalize p.recording.callDuring outage c = r at hturned
  cases hturned with
  | opened camera now enabled snapPending hfolder =>
    have hknown := Root.known_create hfolder (p.recording.upcoming now) camera
    refine ⟨rfl, .opened _ (Core.upcoming_fresh now p.recording p.numbering) rfl ?_ rfl rfl
      hknown rfl, ?_⟩
    · rintro t ⟨⟩
    · intro f hf
      change f ∈ (p.recording.root.create (p.recording.upcoming now) camera).sessions at hf
      cases hroot : p.recording.root with
      | folder others sessions =>
        rw [hroot] at hf
        rcases List.mem_append.mp hf with hold | hnew
        · exact .inl hold
        · rw [List.mem_singleton.mp hnew]
          exact .inr ⟨rfl, rfl⟩
      | _ =>
        rw [hroot] at hf
        cases hf
  | withdrawn hreach hop hpending s hs =>
    refine ⟨rfl, .kept rfl (by rintro t ⟨⟩) ?_ (Nat.le_refl _) ?_ rfl, ?_⟩
    · intro hrecords
      exact Bool.or_eq_true_iff.mpr (.inr hpending)
    · intro t ht
      obtain ⟨folder, hfolder, rfl⟩ := List.mem_map.mp ht
      exact List.mem_map_of_mem (Root.mem_sessions_remove.mp hfolder).1
    · intro f hf
      exact .inl (Root.mem_sessions_remove.mp hf).1
  | kept _ hpath hroot hnext hsession hrecords =>
    refine ⟨rfl, .kept rfl hsession hrecords hnext ?_ rfl, ?_⟩
    · intro t ht
      change t ∈ r.root.known at ht
      rwa [hroot] at ht
    · intro f hf
      rw [← hroot]
      exact .inl hf

theorem drain_changed (frame : Frame) (p : Plan) :
    ∃ note, note.frame? = some frame ∧ Changed p note (p.drain frame) := by
  by_cases hrecords : p.recording.records = true
  · cases hs : p.recording.session with
    | some s =>
      rw [drain_of_session frame hrecords hs]
      exact ⟨_, rfl, rfl, .recorded frame s _ hrecords hs, fun f => .inl⟩
    | none =>
      rw [drain_of_no_session frame hrecords hs]
      exact ⟨_, rfl, rfl, .kept rfl (fun _ => id) (fun _ => hrecords) (Nat.le_refl _) (fun _ => id)
        rfl, fun f => .inl⟩
  · have hidle := Bool.eq_false_iff.mpr hrecords
    rw [drain_of_idle frame hidle]
    exact ⟨_, rfl, rfl, .skipped frame hidle, fun f => .inl⟩

theorem frames_drain (frame : Frame) (p : Plan) : (p.drain frame).frames = p.frames ++ [frame] := by
  obtain ⟨note, hframe, hchanged⟩ := p.drain_changed frame
  rw [frames, hchanged.notes, framesOf_snoc, hframe, Option.toList_some, frames]

theorem frames_step (p : Plan) (e : Bench.Event) :
    (p.step e).frames = p.frames ++ e.frame?.toList := by
  cases e with
  | call c outage => exact framesOf_snoc p.notes .other
  | drain handOff now frame => exact p.frames_drain frame
  | finish index now => exact (List.append_nil _).symm

/-! ## Sound plans -/

/-- The sessions are told apart, their frames are numbered as they were drained, and the
folders of those that were met are empty. -/
structure Sound (p : Plan) : Prop where
  sessions : Core.Sessions p.notes p.core
  numbered : Core.Numbered p.notes p.core
  increasing : p.frames.Pairwise fun f g => f.id < g.id
  bare : ∀ f ∈ p.recording.root.sessions, Core.Met p.notes p.core f.session →
    f.frames = [] ∧ f.timestamps = []

namespace Sound

theorem nodup (h : Sound p) : (p.jobs.map Job.place).Nodup := h.numbered.nodup_places h.increasing

/-- A plan without jobs over a recording that was just set up. -/
theorem of_new {path : String} {root : Root} {r : Recording}
    (hnew : Recording.new path root = .ok r) (ticksPerSecond : Binary64) :
    Sound ⟨r, .new, ticksPerSecond, []⟩ := by
  unfold Recording.new at hnew
  cases hcheck : root.check path with
  | error e =>
    rw [hcheck] at hnew
    cases hnew
  | ok =>
    rw [hcheck] at hnew
    cases hnew
    refine ⟨.of_new rfl, .of_new rfl rfl, .nil, ?_⟩
    rintro f - (⟨⟨⟩⟩ | ⟨note, ⟨⟩, -⟩)

/-- Every change keeps a plan sound, if a drained frame is later than all those before
it. -/
theorem changed (h : Sound p) {note : Note} (hchanged : Changed p note p')
    (hlater : ∀ frame, note.frame? = some frame → ∀ earlier ∈ p.frames, earlier.id < frame.id) :
    Sound p' := by
  have hsessions := h.sessions.change hchanged.core
  have hnumbered := h.numbered.change h.sessions hchanged.core hlater
  rw [← hchanged.notes] at hsessions hnumbered
  refine ⟨hsessions, hnumbered, ?_, ?_⟩
  · rw [frames, hchanged.notes, framesOf_snoc, List.pairwise_append]
    refine ⟨h.increasing, ?_, ?_⟩
    · cases note.frame? with
      | none => exact .nil
      | some frame => exact List.pairwise_singleton _ _
    · intro earlier hearlier frame hframe
      exact hlater frame (Option.mem_toList.mp hframe) earlier hearlier
  · intro f hf hmet
    rw [hchanged.notes] at hmet
    rcases hchanged.folders f hf with hold | hempty
    · rcases hchanged.core.met hmet with hbefore | ⟨hfresh, -⟩
      · exact h.bare f hold hbefore
      · -- a new session had no folder before
        exact absurd rfl (hfresh.started_ne _ (List.mem_map_of_mem hold))
    · exact hempty

theorem drain (h : Sound p) {frame : Frame} (hlater : ∀ earlier ∈ p.frames, earlier.id < frame.id) :
    Sound (p.drain frame) := by
  obtain ⟨note, hframe, hchanged⟩ := p.drain_changed frame
  refine h.changed hchanged ?_
  rw [hframe]
  rintro _ ⟨⟩
  exact hlater

theorem step (h : Sound p) (e : Bench.Event)
    (hlater : ∀ frame, e.frame? = some frame → ∀ earlier ∈ p.frames, earlier.id < frame.id) :
    Sound (p.step e) := by
  cases e with
  | call c outage => exact h.changed (p.call_changed outage c) (by rintro frame ⟨⟩)
  | drain handOff now frame => exact h.drain (hlater frame rfl)
  | finish index now => exact h

end Sound

end Plan

end FrameServer
