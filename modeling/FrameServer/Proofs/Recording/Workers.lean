import FrameServer.Proofs.Recording.Plan

/-!
# FrameServer.Proofs.Recording.Workers — what the workers make of a plan

Whoever writes the jobs of a bench and whenever that is, its recording is that of the
plan, filled up with what the written jobs leave behind. Each job of the plan was
accepted by a worker or refused, and it was written once or is still in the hands of a
worker.

1. **Written jobs** and how they were counted.
2. **Benches that follow a plan**: the invariant.
3. **Events** keep it.
4. **Runs**
-/

namespace FrameServer

open Logger (Job Write Writer jobsBy)

/-! ## Written jobs -/

namespace Logger

variable (encoder : Encoder) (path : String)

/-- What the jobs that were written leave behind. -/
def entriesOf (written : List Write) : List Entry :=
  written.filterMap fun w => w.job.entry? encoder w.now path

/-- A job was counted as logged if the encoder made something of it and its folder was
there, which is still there unless its session was withdrawn. -/
def Write.Truthful (known withdrawn : List Session) (w : Write) : Prop :=
  w.logged = true ∧ (∃ content, w.job.encoded encoder path = .ok content) ∧
      (w.job.session ∈ known ∨ w.job.session ∈ withdrawn) ∨
    w.logged = false ∧
      ((∃ e, w.job.encoded encoder path = .error e) ∨ w.job.session ∉ known)

variable {encoder path}

/-- A job that has an entry is the job of that entry. -/
theorem Job.job_of_entry? {job : Job} {now : WallTime} {e : Entry}
    (h : job.entry? encoder now path = some e) : e.job = job := by
  unfold Job.entry? at h
  split at h
  · cases h
  · cases h
    rfl

theorem mem_jobs_of_entry {written : List Write} {e : Entry}
    (he : e ∈ entriesOf encoder path written) : e.job ∈ written.map Write.job := by
  obtain ⟨w, hw, hentry⟩ := List.mem_filterMap.mp he
  rw [Job.job_of_entry? hentry]
  exact List.mem_map_of_mem hw

theorem entriesOf_snoc (written : List Write) (w : Write) :
    entriesOf encoder path (written ++ [w]) =
      entriesOf encoder path written ++ (w.job.entry? encoder w.now path).toList := by
  unfold entriesOf
  rw [List.filterMap_append]
  cases hentry : w.job.entry? encoder w.now path <;> simp [hentry]

/-- Every written job was written by the drain or by a worker. -/
theorem jobsBy_perm (written : List Write) :
    (jobsBy .worker written ++ jobsBy .drain written).Perm (written.map Write.job) := by
  have hother : ∀ w ∈ written, decide (w.writer = .drain) = !decide (w.writer = .worker) := by
    intro w _
    cases w.writer <;> rfl
  unfold jobsBy
  rw [← List.map_append, List.filter_congr hother]
  exact (List.filter_append_perm _ written).map Write.job

theorem jobsBy_snoc (writer : Writer) (written : List Write) (w : Write) :
    jobsBy writer (written ++ [w]) =
      jobsBy writer written ++ if w.writer = writer then [w.job] else [] := by
  unfold jobsBy
  rw [List.filter_append, List.map_append, List.filter_singleton]
  by_cases hwriter : w.writer = writer
  · rw [if_pos hwriter, decide_eq_true hwriter]
    rfl
  · rw [if_neg hwriter, decide_eq_false hwriter]
    rfl

/-- Writing a job adds its entry to the root, and it is counted once. -/
theorem perform_fill {entries : List Entry} {now : WallTime} {job : Job} {r : Recording}
    {l : Logger} {x : Exchange} (hrecording : x.recording = r.fill encoder entries)
    (hbare : ∀ f ∈ r.root.sessions, f.session = job.session → f.frames = [])
    (hnew : ∀ e ∈ entries, e.job.place ≠ job.place) (writer : Writer)
    (withdrawn : List Session) :
    ∃ counters logged,
      perform encoder now job l x =
        ({ l with counters }, { x with
          recording := r.fill encoder (entries ++ (job.entry? encoder now r.path).toList) }) ∧
      (counters.drained = l.counters.drained ∧ counters.inlined = l.counters.inlined ∧
        counters.logged + counters.errors = l.counters.logged + l.counters.errors + 1) ∧
      l.counters.outcome? counters = some logged ∧
      (⟨writer, job, now, logged⟩ : Write).Truthful encoder r.path r.root.known withdrawn := by
  obtain ⟨hroot, ⟨hok, hencoded, hknown⟩ | ⟨⟨e, herror⟩, hlost⟩⟩ := Job.write_fill now hbare hnew
  · refine ⟨{ l.counters with logged := l.counters.logged + 1 }, true, ?_, ⟨rfl, rfl, ?_⟩, ?_,
      .inl ⟨rfl, hencoded, .inl hknown⟩⟩
    · simp only [perform, hrecording, hroot, hok, Counters.count]
    · exact Nat.add_right_comm _ _ _
    · exact if_pos (Nat.lt_succ_self _)
  · refine ⟨{ l.counters with errors := l.counters.errors + 1 }, false, ?_, ⟨rfl, rfl, rfl⟩, ?_,
      .inr ⟨rfl, hlost⟩⟩
    · simp only [perform, hrecording, hroot, herror, Counters.count]
    · rw [Counters.outcome?, if_neg (Nat.lt_irrefl _)]
      exact if_pos (Nat.lt_succ_self _)

end Logger

open Logger (entriesOf jobsBy_perm jobsBy_snoc entriesOf_snoc)

/-! ## Benches that follow a plan -/

/-- The bench is at the same point as the plan: its recording is that of the plan with
the written jobs added, and the jobs of the plan went to the workers or to the drain,
each of them once. -/
structure Bench.Follows (encoder : Encoder) (workers : Nat) (p : Plan) (b : Bench) : Prop where
  recording : b.exchange.recording =
    p.recording.fill encoder (entriesOf encoder p.recording.path b.written)
  numbering : b.logger.numbering = p.numbering
  ticks : b.logger.ticksPerSecond = p.ticksPerSecond
  assigned : (b.accepted ++ b.refused).Perm p.jobs
  byWorkers : (jobsBy .worker b.written ++ b.logger.handed).Perm b.accepted
  byDrain : jobsBy .drain b.written = b.refused
  drained : b.logger.counters.drained = b.skipped + p.jobs.length
  ended : b.logger.counters.logged + b.logger.counters.errors = b.written.length
  inlined : b.logger.counters.inlined = b.refused.length
  truthful : ∀ w ∈ b.written,
    w.Truthful encoder p.recording.path p.recording.root.known b.withdrawn
  gone : ∀ s ∈ b.withdrawn, s.id < p.recording.nextId ∧ s ∉ p.recording.root.known
  workers_eq : b.logger.workers = workers
  room : b.logger.handed.length ≤ workers

namespace Bench.Follows

variable {encoder : Encoder} {workers : Nat} {p : Plan} {b : Bench}

theorem start {r : Recording} (workers : Nat) (ticksPerSecond : Binary64) {x : Exchange}
    (hrecording : x.recording = r) :
    Follows encoder workers ⟨r, .new, ticksPerSecond, []⟩ (.start workers ticksPerSecond x) := by
  refine ⟨?_, rfl, rfl, .refl _, .refl _, rfl, rfl, rfl, rfl, by rintro w ⟨⟩,
    by rintro s ⟨⟩, rfl, Nat.zero_le _⟩
  show x.recording = r.fill encoder []
  rw [hrecording, Recording.fill, Root.fill_nil]

/-- Each job of the plan was written or is in the hands of a worker. -/
theorem jobs_perm (h : Follows encoder workers p b) :
    (b.written.map Write.job ++ b.logger.handed).Perm p.jobs := by
  have hwritten : (b.written.map Write.job ++ b.logger.handed).Perm
      ((jobsBy .worker b.written ++ b.logger.handed) ++ b.refused) := by
    rw [← h.byDrain, List.append_assoc]
    refine ((jobsBy_perm b.written).symm.append_right _).trans ?_
    rw [List.append_assoc]
    exact List.perm_append_comm.append_left _
  exact (hwritten.trans (h.byWorkers.append_right _)).trans h.assigned

theorem mem_jobs_of_written (h : Follows encoder workers p b) {w : Write} (hw : w ∈ b.written) :
    w.job ∈ p.jobs :=
  h.jobs_perm.subset (List.mem_append_left _ (List.mem_map_of_mem hw))

theorem mem_jobs_of_entry (h : Follows encoder workers p b) {e : Entry}
    (he : e ∈ entriesOf encoder p.recording.path b.written) : e.job ∈ p.jobs :=
  h.jobs_perm.subset (List.mem_append_left _ (Logger.mem_jobs_of_entry he))

theorem enabled_eq (h : Follows encoder workers p b) :
    b.exchange.recording.enabled = p.recording.enabled := by
  rw [h.recording]
  rfl

theorem snapPending_eq (h : Follows encoder workers p b) :
    b.exchange.recording.snapPending = p.recording.snapPending := by
  rw [h.recording]
  rfl

theorem session_eq (h : Follows encoder workers p b) :
    b.exchange.recording.session = p.recording.session := by
  rw [h.recording]
  rfl

theorem records_eq (h : Follows encoder workers p b) :
    b.exchange.recording.records = p.recording.records := by
  rw [Recording.records, h.enabled_eq, h.snapPending_eq, Recording.records]

theorem drained_eq (h : Follows encoder workers p b) : b.exchange.recording.drained =
    p.recording.drained.fill encoder (entriesOf encoder p.recording.path b.written) := by
  rw [h.recording]
  rfl

theorem assign_eq (h : Follows encoder workers p b) (frame : Frame) (s : Session) :
    (b.logger.assign frame s).1 = p.job frame s := by
  show (⟨frame, (b.logger.numbering.assign frame.header s.id).1.1,
    .ofNat (b.logger.numbering.assign frame.header s.id).1.2 / b.logger.ticksPerSecond, s⟩ :
      Job) = _
  rw [h.numbering, h.ticks, Plan.job]

/-! ## Events -/

/-- A call does the same to the plan and to the bench. -/
theorem call (h : Follows encoder workers p b) (hsound : p.Sound) (c : Recording.Call)
    (outage : Option Outage) :
    Follows encoder workers (p.call outage c) (b.step encoder (.call c outage)) := by
  have hturned := p.recording.turned_callDuring outage c
  have hwithdrawn : b.exchange.recording.withdrawnBy outage c =
      p.recording.withdrawnBy outage c := by
    rw [Recording.withdrawnBy, h.snapPending_eq, h.session_eq, Recording.withdrawnBy]
  have hless : ∀ job ∈ p.jobs, job.session.id < p.recording.nextId := by
    intro job hjob
    exact hsound.sessions.lt _ (Core.met_of_job hjob)
  -- a folder that is created is that of a session which has no jobs yet
  have hunknown : ∀ s : Session, s.id < p.recording.nextId → s ∉ p.recording.root.known →
      s ∉ (p.recording.callDuring outage c).root.known := by
    intro s hid hs hknown
    rcases hturned.known hknown with hold | hnew
    · exact hs hold
    · exact Nat.ne_of_lt hid hnew
  have hjobs := p.jobs_call outage c
  refine { h with
    recording := ?_, assigned := hjobs ▸ h.assigned, drained := hjobs ▸ h.drained, truthful := ?_,
    gone := ?_ }
  · show b.exchange.recording.callDuring outage c = (p.recording.callDuring outage c).fill encoder
      (entriesOf encoder (p.recording.callDuring outage c).path b.written)
    rw [hturned.path, h.recording]
    cases outage with
    | none => exact Recording.call_fill (fun e he => hless _ (h.mem_jobs_of_entry he)) c
    | some outage => rfl
  · intro w hw
    have hid := hless _ (h.mem_jobs_of_written hw)
    show w.Truthful encoder (p.recording.callDuring outage c).path _ (b.withdrawn ++ _)
    rw [hturned.path, hwithdrawn]
    rcases h.truthful w hw with ⟨hlogged, hencoded, hknown | hgone⟩ | ⟨hlogged, hlost⟩
    · refine .inl ⟨hlogged, hencoded, ?_⟩
      by_cases hs : p.recording.withdrawnBy outage c = some w.job.session
      · rw [hs]
        exact .inr (List.mem_append_right _ List.mem_cons_self)
      · exact .inl (hturned.known_of_known hknown hs)
    · exact .inl ⟨hlogged, hencoded, .inr (List.mem_append_left _ hgone)⟩
    · exact .inr ⟨hlogged, hlost.imp_right (hunknown _ hid)⟩
  · intro s hs
    show s.id < (p.recording.callDuring outage c).nextId ∧ _
    rcases List.mem_append.mp hs with hold | hnew
    · obtain ⟨hid, hnot⟩ := h.gone s hold
      exact ⟨Nat.lt_of_lt_of_le hid hturned.nextId_le, hunknown s hid hnot⟩
    · rw [hwithdrawn, Option.mem_toList] at hnew
      obtain ⟨hpresent, hnot⟩ := Recording.notMem_known_of_withdrawn hnew
      exact ⟨Nat.lt_of_lt_of_le (hsound.sessions.lt s (.inl hpresent)) hturned.nextId_le, hnot⟩

/-- A frame that is not to be recorded. -/
theorem idle (h : Follows encoder workers p b) (handOff : Bool) (now : WallTime) (frame : Frame)
    (hrecords : p.recording.records = false) :
    Follows encoder workers (p.drain frame) (b.step encoder (.drain handOff now frame)) := by
  have hidle := h.records_eq.trans hrecords
  have hnone : b.logger.jobFor? frame b.exchange.recording = none := by
    rw [Logger.jobFor?]
    exact if_neg (Bool.eq_false_iff.mp hidle)
  have hjobs := Plan.jobs_drain_of_none frame (.inl hrecords)
  rw [Plan.drain_of_idle frame hrecords] at hjobs ⊢
  simp only [step, hnone, Logger.handle_of_idle encoder handOff now frame hidle]
  refine { h with numbering := ?_, assigned := hjobs ▸ h.assigned, drained := ?_ }
  · show b.logger.numbering.boundary = _
    rw [h.numbering]
  · show b.logger.counters.drained + 1 = b.skipped + 1 + _
    rw [hjobs, h.drained, Nat.add_right_comm]

/-- A frame that is to be recorded, without a session for it. -/
theorem lost (h : Follows encoder workers p b) (handOff : Bool) (now : WallTime) (frame : Frame)
    (hrecords : p.recording.records = true) (hs : p.recording.session = none) :
    Follows encoder workers (p.drain frame) (b.step encoder (.drain handOff now frame)) := by
  have hrecord := h.records_eq.trans hrecords
  have hsession := h.session_eq.trans hs
  have hnone : b.logger.jobFor? frame b.exchange.recording = none := by
    rw [Logger.jobFor?, hsession]
    exact if_pos hrecord
  have hjobs := Plan.jobs_drain_of_none frame (.inr hs)
  rw [Plan.drain_of_no_session frame hrecords hs] at hjobs ⊢
  simp only [step, hnone, Logger.handle_of_no_session encoder handOff now frame hrecord hsession]
  refine { h with recording := h.drained_eq, assigned := hjobs ▸ h.assigned, drained := ?_ }
  show b.logger.counters.drained + 1 = b.skipped + 1 + _
  rw [hjobs, h.drained, Nat.add_right_comm]

theorem jobFor?_eq (h : Follows encoder workers p b) (frame : Frame) {s : Session}
    (hrecords : p.recording.records = true) (hs : p.recording.session = some s) :
    b.logger.jobFor? frame b.exchange.recording = some (p.job frame s) := by
  have hrecord : (b.exchange.recording.enabled || b.exchange.recording.snapPending) = true :=
    h.records_eq.trans hrecords
  rw [Logger.jobFor?, if_pos hrecord, h.session_eq, hs, Option.map_some, h.assign_eq]

/-- A frame that is to be recorded into a session becomes the job of the plan. -/
theorem handle_eq (h : Follows encoder workers p b) (handOff : Bool) (now : WallTime)
    (frame : Frame) {s : Session} (hrecords : p.recording.records = true)
    (hs : p.recording.session = some s) :
    b.logger.handle encoder handOff now frame b.exchange =
      Logger.dispatch encoder handOff now (p.job frame s)
        { b.logger.drainedOne with numbering := (p.numbering.assign frame.header s.id).2 }
        { b.exchange with
          recording := p.recording.drained.fill encoder
            (entriesOf encoder p.recording.path b.written) } := by
  rw [Logger.handle_of_session encoder handOff now frame (h.records_eq.trans hrecords)
    (h.session_eq.trans hs), h.assign_eq, h.drained_eq, h.numbering]

/-- A frame whose job a worker takes. -/
theorem accepted (h : Follows encoder workers p b) {handOff : Bool} (now : WallTime) (frame : Frame)
    {s : Session} (hrecords : p.recording.records = true) (hs : p.recording.session = some s)
    (haccepts : b.logger.accepts handOff = true) :
    Follows encoder workers (p.drain frame) (b.step encoder (.drain handOff now frame)) := by
  have hhandle := (h.handle_eq handOff now frame hrecords hs).trans (if_pos haccepts)
  -- the counters show nothing written
  have hquiet : b.logger.counters.outcome? b.logger.drainedOne.counters = none :=
    (if_neg (Nat.lt_irrefl _)).trans (if_neg (Nat.lt_irrefl _))
  have hjobs := Plan.jobs_drain_of_session frame hrecords hs
  rw [Plan.drain_of_session frame hrecords hs] at hjobs ⊢
  simp only [step, h.jobFor?_eq frame hrecords hs, hhandle, if_pos haccepts, moved, hquiet,
    Option.map_none, Option.toList_none, List.append_nil]
  refine { h with
    recording := rfl, numbering := rfl, assigned := ?_, byWorkers := ?_, drained := ?_,
    room := ?_ }
  · rw [hjobs]
    show ((b.accepted ++ [_]) ++ b.refused).Perm (p.jobs ++ [_])
    rw [List.append_assoc]
    refine (List.perm_append_comm.append_left b.accepted).trans ?_
    rw [← List.append_assoc]
    exact h.assigned.append_right _
  · show (jobsBy .worker b.written ++ (b.logger.handed ++ [_])).Perm (b.accepted ++ [_])
    rw [← List.append_assoc]
    exact h.byWorkers.append_right _
  · rw [hjobs, List.length_append]
    show b.logger.counters.drained + 1 = _
    rw [h.drained]
    rfl
  · show (b.logger.handed ++ [_]).length ≤ workers
    have hroom := of_decide_eq_true (Bool.and_eq_true_iff.mp haccepts).2
    rw [List.length_append, ← h.workers_eq]
    exact hroom

/-- A job that no worker takes is written by the logger as it is then. -/
theorem handle_refused (h : Follows encoder workers p b) {handOff : Bool} (now : WallTime)
    (frame : Frame) {s : Session} (hrecords : p.recording.records = true)
    (hs : p.recording.session = some s)
    (hrefuses : b.logger.accepts handOff = false) :
    ∃ (l : Logger) (x : Exchange), b.logger.handle encoder handOff now frame b.exchange =
        l.perform encoder now (p.job frame s) x ∧
      x.recording = p.recording.drained.fill encoder
        (entriesOf encoder p.recording.path b.written) ∧
      l.numbering = (p.numbering.assign frame.header s.id).2 ∧
      l.ticksPerSecond = b.logger.ticksPerSecond ∧ l.handed = b.logger.handed ∧
      l.workers = b.logger.workers ∧
      l.counters = { b.logger.counters with
        drained := b.logger.counters.drained + 1, inlined := b.logger.counters.inlined + 1 } :=
  ⟨_, _, (h.handle_eq handOff now frame hrecords hs).trans
    (if_neg (Bool.eq_false_iff.mp hrefuses)), rfl, rfl, rfl, rfl, rfl, rfl⟩

/-- A frame whose job the drain writes. -/
theorem refused (h : Follows encoder workers p b) (hsound : p.Sound) {handOff : Bool}
    (now : WallTime) {frame : Frame} {s : Session}
    (hlater : ∀ earlier ∈ p.frames, earlier.id < frame.id)
    (hrecords : p.recording.records = true) (hs : p.recording.session = some s)
    (hrefuses : b.logger.accepts handOff = false) :
    Follows encoder workers (p.drain frame) (b.step encoder (.drain handOff now frame)) := by
  have hbare : ∀ f ∈ p.recording.drained.root.sessions, f.session = (p.job frame s).session →
      f.frames = [] := by
    intro f hf hsame
    exact (hsound.bare f hf (.inl (hs.trans (congrArg some hsame.symm)))).1
  have hnew : ∀ e ∈ entriesOf encoder p.recording.path b.written,
      e.job.place ≠ (p.job frame s).place := by
    intro e he
    have hnodup := (hsound.drain hlater).nodup
    rw [Plan.jobs_drain_of_session frame hrecords hs, List.map_append, List.nodup_append] at hnodup
    exact hnodup.2.2 _ (List.mem_map_of_mem (h.mem_jobs_of_entry he)) _ List.mem_cons_self
  obtain ⟨l, x, hhandle, hrecording, hnumbering, hticks, hhanded, hworkers, hcounters⟩ :=
    h.handle_refused now frame hrecords hs hrefuses
  obtain ⟨counters, logged, hperform, ⟨hdrained, hinlined, hended⟩, houtcome, htruthful⟩ :=
    Logger.perform_fill hrecording hbare hnew .drain b.withdrawn
  rw [hperform] at hhandle
  rw [hcounters] at hdrained hinlined hended houtcome
  have hseen : b.logger.counters.outcome? counters = some logged := houtcome
  have hjobs := Plan.jobs_drain_of_session frame hrecords hs
  rw [Plan.drain_of_session frame hrecords hs] at hjobs ⊢
  simp only [step, h.jobFor?_eq frame hrecords hs, hhandle, hrefuses, Bool.false_eq_true, if_false,
    moved, hseen, Option.map_some, Option.toList_some]
  refine ⟨?_, hnumbering, hticks.trans h.ticks, ?_, ?_, ?_, ?_, ?_, ?_, ?_, h.gone,
    hworkers.trans h.workers_eq, ?_⟩
  · rw [entriesOf_snoc]
    rfl
  · rw [hjobs]
    show (b.accepted ++ (b.refused ++ [_])).Perm (p.jobs ++ [_])
    rw [← List.append_assoc]
    exact h.assigned.append_right _
  · show (jobsBy .worker (b.written ++ [_]) ++ l.handed).Perm b.accepted
    rw [jobsBy_snoc, if_neg (by rintro ⟨⟩), List.append_nil, hhanded]
    exact h.byWorkers
  · show jobsBy .drain (b.written ++ [_]) = b.refused ++ [_]
    rw [jobsBy_snoc, if_pos rfl, h.byDrain]
  · rw [hjobs, List.length_append]
    show counters.drained = _
    rw [hdrained, h.drained]
    rfl
  · show counters.logged + counters.errors = (b.written ++ [_]).length
    rw [hended, h.ended, List.length_append]
    rfl
  · show counters.inlined = (b.refused ++ [_]).length
    rw [hinlined, h.inlined, List.length_append]
    rfl
  · intro w hw
    rcases List.mem_append.mp hw with hold | hnew
    · exact h.truthful w hold
    · rw [List.mem_singleton.mp hnew]
      exact htruthful
  · show l.handed.length ≤ workers
    rw [hhanded]
    exact h.room

/-- A worker that finishes its job. -/
theorem finished (h : Follows encoder workers p b) (hsound : p.Sound) {index : Nat}
    (now : WallTime) {job : Job} (hjob : b.logger.handed[index]? = some job) :
    Follows encoder workers p (b.step encoder (.finish index now)) := by
  have hperm := h.jobs_perm
  have hmem : job ∈ p.jobs :=
    hperm.subset (List.mem_append_right _ (List.mem_of_getElem? hjob))
  have hbare : ∀ f ∈ p.recording.root.sessions, f.session = job.session → f.frames = [] := by
    intro f hf hsame
    exact (hsound.bare f hf (hsame ▸ Core.met_of_job hmem)).1
  have hnew : ∀ e ∈ entriesOf encoder p.recording.path b.written, e.job.place ≠ job.place := by
    intro e he
    have hnodup := (hperm.map Job.place).nodup_iff.mpr hsound.nodup
    rw [List.map_append, List.nodup_append] at hnodup
    exact hnodup.2.2 _ (List.mem_map_of_mem (Logger.mem_jobs_of_entry he)) _
      (List.mem_map_of_mem (List.mem_of_getElem? hjob))
  have hmove : b.logger.move encoder now (.finish index) b.exchange =
      some (({ b.logger with handed := b.logger.handed.eraseIdx index } : Logger).perform encoder
        now job b.exchange) := by
    rw [Logger.move, hjob]
  obtain ⟨counters, logged, hperform, ⟨hdrained, hinlined, hended⟩, houtcome, htruthful⟩ :=
    Logger.perform_fill (l := { b.logger with handed := b.logger.handed.eraseIdx index })
      h.recording hbare hnew .worker b.withdrawn
  rw [hperform] at hmove
  have hseen : b.logger.counters.outcome? counters = some logged := houtcome
  simp only [step, hjob, hmove, moved, hseen, Option.map_some, Option.toList_some]
  refine ⟨?_, h.numbering, h.ticks, h.assigned, ?_, ?_, ?_, ?_, ?_, ?_, h.gone, h.workers_eq, ?_⟩
  · rw [entriesOf_snoc]
  · show (jobsBy .worker (b.written ++ [_]) ++ b.logger.handed.eraseIdx index).Perm b.accepted
    rw [jobsBy_snoc, if_pos rfl, List.append_assoc]
    exact ((Logger.cons_eraseIdx_perm hjob).append_left _).trans h.byWorkers
  · show jobsBy .drain (b.written ++ [_]) = b.refused
    rw [jobsBy_snoc, if_neg (by rintro ⟨⟩), List.append_nil]
    exact h.byDrain
  · exact hdrained.trans h.drained
  · show counters.logged + counters.errors = (b.written ++ [_]).length
    rw [hended, List.length_append]
    exact congrArg (· + 1) h.ended
  · exact hinlined.trans h.inlined
  · intro w hw
    rcases List.mem_append.mp hw with hold | hnew
    · exact h.truthful w hold
    · rw [List.mem_singleton.mp hnew]
      exact htruthful
  · exact Nat.le_trans (List.length_eraseIdx_le _ _) h.room

theorem step (h : Follows encoder workers p b) (hsound : p.Sound) (e : Event)
    (hlater : ∀ frame, e.frame? = some frame → ∀ earlier ∈ p.frames, earlier.id < frame.id) :
    Follows encoder workers (p.step e) (b.step encoder e) := by
  cases e with
  | call c outage => exact h.call hsound c outage
  | drain handOff now frame =>
    show Follows encoder workers (p.drain frame) _
    by_cases hrecords : p.recording.records = true
    · cases hs : p.recording.session with
      | none => exact h.lost handOff now frame hrecords hs
      | some s =>
        cases haccepts : b.logger.accepts handOff with
        | true => exact h.accepted now frame hrecords hs haccepts
        | false => exact h.refused hsound now (hlater frame rfl) hrecords hs haccepts
    · exact h.idle handOff now frame (Bool.eq_false_iff.mpr hrecords)
  | finish index now =>
    cases hjob : b.logger.handed[index]? with
    | some job => exact h.finished hsound now hjob
    | none =>
      have hsame : b.step encoder (.finish index now) = b := by simp only [Bench.step, hjob]
      rw [hsame]
      exact h

end Bench.Follows

/-! ## Runs -/

def Plan.run (events : List Bench.Event) (p : Plan) : Plan := events.foldl Plan.step p

/-- A bench that follows a sound plan does so after any row of events. -/
theorem Bench.Follows.run {encoder : Encoder} {workers : Nat} {p : Plan} {b : Bench}
    (h : Follows encoder workers p b) (hsound : p.Sound) (events : List Event)
    (hids : (p.frames ++ framesOf events).Pairwise fun f g => f.id < g.id) :
    (p.run events).Sound ∧ Follows encoder workers (p.run events) (b.run encoder events) := by
  induction events generalizing p b with
  | nil => exact ⟨hsound, h⟩
  | cons e later ih =>
    have hframes : p.frames ++ framesOf (e :: later) = (p.step e).frames ++ framesOf later := by
      rw [p.frames_step, List.append_assoc, framesOf, List.filterMap_cons]
      cases e.frame? <;> rfl
    have hlater : ∀ frame, e.frame? = some frame → ∀ earlier ∈ p.frames, earlier.id < frame.id := by
      intro frame hframe earlier hearlier
      refine (List.pairwise_append.mp hids).2.2 earlier hearlier frame ?_
      exact List.mem_filterMap.mpr ⟨e, List.mem_cons_self, hframe⟩
    rw [hframes] at hids
    exact ih (h.step hsound e hlater) (hsound.step e hlater) hids

end FrameServer
