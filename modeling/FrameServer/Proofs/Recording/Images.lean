import FrameServer.Proofs.Recording.Numbers

/-!
# FrameServer.Proofs.Recording.Images — no recorded image is overwritten

A worker may write the image of a job long after the frame was drained, when other
jobs of the same session have been written. The place of an image, which is its
session and its number, is given out once in a run, so every image is still there
at the end of the run as it was first written.

1. **Places** of images.
2. **Images**: the invariant, and what keeps it.
3. **Runs**
-/

namespace FrameServer

open Logger (Job)

/-! ## Places -/

theorem Logger.Job.place_eq_of_fileName_eq {encoder : Encoder} {a b : Job}
    (hsession : a.session = b.session) (hname : a.fileName encoder = b.fileName encoder) :
    a.place = b.place :=
  Prod.ext hsession (Session.number_eq_of_frameName_eq hname)

theorem jobsOf_sublist_append (notes later : List Note) :
    (jobsOf notes).Sublist (jobsOf (notes ++ later)) := by
  unfold jobsOf
  rw [List.filterMap_append]
  exact List.sublist_append_left _ _

namespace Desk

variable {κ : Type}

/-- The folder of a session has an image with this name and content. -/
def Holds (d : Desk κ) (s : Session) (name : String) (content : Content) : Prop :=
  d.recording.root.Holds s name content

/-! ## Images -/

/-- The jobs that workers have are to be written to places of their own, where
nothing is yet, and the images of the sessions that a run has met are those of its
jobs. -/
structure Images (encoder : Encoder) (notes : List Note) (d : Desk κ) : Prop where
  handed_mem : ∀ job ∈ d.logger.handed, job ∈ jobsOf notes
  handed_nodup : (d.logger.handed.map Job.place).Nodup
  handed_free : ∀ job ∈ d.logger.handed, ∀ content,
    ¬ d.Holds job.session (job.fileName encoder) content
  of_job : ∀ s name content, Core.Met notes d.core s → d.Holds s name content →
    ∃ job ∈ jobsOf notes, job.session = s ∧ job.fileName encoder = name

namespace Images

variable {encoder : Encoder} {notes : List Note} {note : Note} {d d' : Desk κ}

/-- An image of a session that was met after a step is one of an earlier job, if it
was there before the step. -/
theorem of_earlier_job (h : Images encoder notes d) (hcore : Core.Step d.core note d'.core)
    {s : Session} {name : String} {content : Content}
    (hmet : Core.Met (notes ++ [note]) d'.core s) (hold : d.Holds s name content) :
    ∃ job ∈ jobsOf notes, job.session = s ∧ job.fileName encoder = name := by
  rcases hcore.change.met hmet with hmet | ⟨hfresh, -⟩
  · exact h.of_job s name content hmet hold
  · -- a new session had no folder before the step
    exact absurd rfl (hfresh.started_ne s (Root.mem_known_of_holds hold))

/-- There is nothing yet at the place of the job that a frame just became. -/
theorem new_free (h : Images encoder notes d) (hcore : Core.Step d.core note d'.core)
    {job : Job} (hnote : note.job? = some job)
    (hplaces : ((jobsOf (notes ++ [note])).map Job.place).Nodup) (content : Content) :
    ¬ d.Holds job.session (job.fileName encoder) content := by
  intro hold
  have hjobs : jobsOf (notes ++ [note]) = jobsOf notes ++ [job] := by
    rw [jobsOf_snoc, hnote, Option.toList_some]
  have hmem : job ∈ jobsOf (notes ++ [note]) := by
    rw [hjobs]
    exact List.mem_append_right _ List.mem_cons_self
  obtain ⟨other, hother, hsession, hname⟩ := h.of_earlier_job hcore (Core.met_of_job hmem) hold
  rw [hjobs, List.map_append, List.nodup_append] at hplaces
  exact hplaces.2.2 _ (List.mem_map_of_mem hother) _ List.mem_cons_self
    (Job.place_eq_of_fileName_eq hsession hname)

/-- The job that a frame just became has another place than those that workers have. -/
theorem new_place (h : Images encoder notes d) {job : Job} (hnote : note.job? = some job)
    (hplaces : ((jobsOf (notes ++ [note])).map Job.place).Nodup) :
    ∀ other ∈ d.logger.handed, other.place ≠ job.place := by
  intro other hhanded
  rw [jobsOf_snoc, hnote, Option.toList_some, List.map_append, List.nodup_append] at hplaces
  exact hplaces.2.2 _ (List.mem_map_of_mem (h.handed_mem other hhanded)) _ List.mem_cons_self

/-- The images that were there stay, and workers keep their jobs. -/
theorem still (h : Images encoder notes d) (hcore : Core.Step d.core note d'.core)
    (hhanded : d'.logger.handed = d.logger.handed)
    (hholds : ∀ {s name content}, d'.Holds s name content ↔ d.Holds s name content) :
    Images encoder (notes ++ [note]) d' := by
  have hjobs := (jobsOf_sublist_append notes [note]).subset
  refine ⟨?_, hhanded ▸ h.handed_nodup, ?_, ?_⟩
  · rw [hhanded]
    intro job hjob
    exact hjobs (h.handed_mem job hjob)
  · rw [hhanded]
    intro job hjob content hafter
    exact h.handed_free job hjob content (hholds.mp hafter)
  · intro s name content hmet hafter
    obtain ⟨job, hjob, heq⟩ := h.of_earlier_job hcore hmet (hholds.mp hafter)
    exact ⟨job, hjobs hjob, heq⟩

/-- A worker takes the job that a frame just became. -/
theorem passedOn (h : Images encoder notes d) (hcore : Core.Step d.core note d'.core) {job : Job}
    (hnote : note.job? = some job) (hhanded : d'.logger.handed = d.logger.handed ++ [job])
    (hholds : ∀ {s name content}, d'.Holds s name content ↔ d.Holds s name content)
    (hplaces : ((jobsOf (notes ++ [note])).map Job.place).Nodup) :
    Images encoder (notes ++ [note]) d' := by
  have hjobs := (jobsOf_sublist_append notes [note]).subset
  refine ⟨?_, ?_, ?_, ?_⟩
  · rw [hhanded, jobsOf_snoc, hnote, Option.toList_some]
    intro other hmem
    exact List.mem_append.mpr ((List.mem_append.mp hmem).imp_left (h.handed_mem other))
  · rw [hhanded, List.map_append, List.nodup_append]
    refine ⟨h.handed_nodup, List.pairwise_singleton _ _, ?_⟩
    intro a ha b hb
    obtain ⟨other, hother, rfl⟩ := List.mem_map.mp ha
    rw [List.mem_singleton.mp hb]
    exact h.new_place hnote hplaces other hother
  · rw [hhanded]
    intro other hmem content hafter
    rcases List.mem_append.mp hmem with hold | hnew
    · exact h.handed_free other hold content (hholds.mp hafter)
    · rw [List.mem_singleton.mp hnew, hholds] at hafter
      exact h.new_free hcore hnote hplaces content hafter
  · intro s name content hmet hafter
    obtain ⟨earlier, hearlier, heq⟩ := h.of_earlier_job hcore hmet (hholds.mp hafter)
    exact ⟨earlier, hjobs hearlier, heq⟩

/-- The image of a job is written, and the jobs that workers have then are to be
written elsewhere. -/
theorem written (h : Images encoder notes d) (hcore : Core.Step d.core note d'.core) {job : Job}
    (hroot : d.recording.root.Written job.session (job.fileName encoder) d'.recording.root)
    (hjob : job ∈ jobsOf (notes ++ [note]))
    (hmem : ∀ other ∈ d'.logger.handed, other ∈ d.logger.handed)
    (hnodup : (d'.logger.handed.map Job.place).Nodup)
    (hother : ∀ other ∈ d'.logger.handed, other.place ≠ job.place) :
    Images encoder (notes ++ [note]) d' := by
  have hjobs := (jobsOf_sublist_append notes [note]).subset
  refine ⟨?_, hnodup, ?_, ?_⟩
  · intro other hhanded
    exact hjobs (h.handed_mem other (hmem other hhanded))
  · intro other hhanded content hafter
    rcases hroot.only hafter with hbefore | ⟨hsession, hname⟩
    · exact h.handed_free other (hmem other hhanded) content hbefore
    · exact hother other hhanded (Job.place_eq_of_fileName_eq hsession hname)
  · intro s name content hmet hafter
    rcases hroot.only hafter with hbefore | ⟨rfl, rfl⟩
    · obtain ⟨earlier, hearlier, heq⟩ := h.of_earlier_job hcore hmet hbefore
      exact ⟨earlier, hjobs hearlier, heq⟩
    · exact ⟨job, hjob, rfl, rfl⟩

/-- The other jobs that workers have do not go where one of them goes. -/
theorem other_places (h : Images encoder notes d) {index : Nat} {job : Job}
    (hjob : d.logger.handed[index]? = some job) :
    ((d.logger.handed.eraseIdx index).map Job.place).Nodup ∧
      ∀ other ∈ d.logger.handed.eraseIdx index, other.place ≠ job.place := by
  have hperm := Logger.cons_eraseIdx_perm hjob
  have hnodup := (hperm.map Job.place).nodup_iff.mpr h.handed_nodup
  rw [List.map_cons, List.nodup_cons] at hnodup
  obtain ⟨hnew, hrest⟩ := hnodup
  refine ⟨hrest, ?_⟩
  intro other hother heq
  exact hnew (heq ▸ List.mem_map_of_mem hother)

/-- A step writes only where nothing was. -/
theorem step (h : Images encoder notes d) (hcore : Core.Step d.core note d'.core)
    (hfiles : Files encoder d note d')
    (hplaces : ((jobsOf (notes ++ [note])).map Job.place).Nodup) :
    Images encoder (notes ++ [note]) d' ∧
      ∀ s name content, d.Holds s name content → d'.Holds s name content := by
  cases hfiles with
  | still hhanded hroot =>
    exact ⟨h.still hcore hhanded hroot, fun s name content => hroot.mpr⟩
  | passedOn job hnote hhanded hroot =>
    have hholds : ∀ {s name content}, d'.Holds s name content ↔ d.Holds s name content := by
      intro s name content
      rw [Holds, hroot, Holds]
    exact ⟨h.passedOn hcore hnote hhanded hholds hplaces, fun s name content => hholds.mpr⟩
  | written job hnote hhanded hroot =>
    have hjob : job ∈ jobsOf (notes ++ [note]) := by
      rw [jobsOf_snoc, hnote]
      exact List.mem_append_right _ List.mem_cons_self
    refine ⟨h.written hcore hroot hjob ?_ (hhanded ▸ h.handed_nodup) ?_, ?_⟩
    · rw [hhanded]
      exact fun _ => id
    · rw [hhanded]
      exact h.new_place hnote hplaces
    · intro s name content
      exact hroot.kept (h.new_free hcore hnote hplaces)
  | finished index job hjob hhanded hroot =>
    obtain ⟨hnodup, hother⟩ := h.other_places hjob
    have hmem : job ∈ d.logger.handed := List.mem_of_getElem? hjob
    have hjob' := (jobsOf_sublist_append notes [note]).subset (h.handed_mem job hmem)
    refine ⟨h.written hcore hroot hjob' ?_ (hhanded ▸ hnodup) (hhanded ▸ hother), ?_⟩
    · rw [hhanded]
      exact fun other => List.mem_of_mem_eraseIdx
    · intro s name content
      exact hroot.kept (h.handed_free job hmem)

/-- A desk with no jobs in other hands has no images of its own yet. -/
theorem of_new (hhanded : d.logger.handed = []) (hsession : d.core.session = none) :
    Images encoder [] d := by
  refine ⟨?_, ?_, ?_, ?_⟩
  · rw [hhanded]
    rintro job ⟨⟩
  · rw [hhanded]
    exact List.nodup_nil
  · rw [hhanded]
    rintro job ⟨⟩
  · rintro s name content (hs | ⟨note, hmem, -⟩)
    · rw [hsession] at hs
      cases hs
    · cases hmem

end Images

/-! ## Runs -/

variable [Camera κ]

/-- What was there before a run is there after it. -/
theorem Images.run {encoder : Encoder} {past : List Note} (events : List Event) {d : Desk κ}
    (h : Images encoder past d)
    (hplaces : ((jobsOf (past ++ (d.run encoder events).1)).map Job.place).Nodup) :
    Images encoder (past ++ (d.run encoder events).1) (d.run encoder events).2 ∧
      ∀ s name content, d.Holds s name content →
        (d.run encoder events).2.Holds s name content := by
  induction events generalizing past d with
  | nil =>
    rw [Desk.run, List.append_nil]
    exact ⟨h, fun _ _ _ => id⟩
  | cons e later ih =>
    have hsplit : past ++ (d.run encoder (e :: later)).1 =
        (past ++ [(d.step encoder e).1]) ++ ((d.step encoder e).2.run encoder later).1 :=
      List.append_cons _ _ _
    rw [hsplit] at hplaces ⊢
    -- the places of this step are some of those of the whole run
    have hnow := hplaces.sublist ((jobsOf_sublist_append _ _).map Job.place)
    obtain ⟨hstep, hkept⟩ := h.step (d.step_core encoder e) (d.step_files encoder e) hnow
    obtain ⟨hrun, hlater⟩ := ih hstep hplaces
    exact ⟨hrun, fun s name content hold => hlater s name content (hkept s name content hold)⟩

theorem run_append (encoder : Encoder) (earlier later : List Event) (d : Desk κ) :
    d.run encoder (earlier ++ later) =
      ((d.run encoder earlier).1 ++ ((d.run encoder earlier).2.run encoder later).1,
        ((d.run encoder earlier).2.run encoder later).2) := by
  induction earlier generalizing d with
  | nil => rfl
  | cons e earlier ih =>
    rw [List.cons_append, run_cons, ih, run_cons, List.cons_append]

/-- In every run that starts with recording off, the jobs of each session are
numbered from one on as their frames have counted, no two jobs of the run share a
session folder and a number, or a path, and no image is overwritten. -/
theorem numbers_exact_and_images_kept (encoder : Encoder) {path : String} {root : Root}
    {d : Desk κ} {workers : Nat} {ticksPerSecond : Binary64}
    (hnew : Recording.new path root = .ok d.recording)
    (hlogger : d.logger = .new workers ticksPerSecond) (events : List Event)
    (hids : (drainsOf events).Pairwise fun f g => f.id < g.id)
    (hbound : ∀ frame ∈ drainsOf events, frame.id < UInt64.size - 1) :
    let notes := (d.run encoder events).1
    (∀ s first later, jobsIn s notes = first :: later →
      first.number = 1 ∧
      (∀ job ∈ later, first.frame.id < job.frame.id ∧
        job.number = job.frame.id - first.frame.id + 1) ∧
      (first :: later).Pairwise fun a b => a.number < b.number) ∧
    (∀ job ∈ jobsOf notes, job.number < UInt64.size) ∧
    ((jobsOf notes).map fun job => (job.session.relativePath, job.number)).Nodup ∧
    (∀ extension, ((jobsOf notes).map fun job =>
      job.session.framePath path job.number extension).Nodup) ∧
    ∀ earlier later, earlier ++ later = events → ∀ s name content,
      (d.run encoder earlier).2.Holds s name content →
        (d.run encoder events).2.Holds s name content := by
  intro notes
  have hframes : framesOf notes = drainsOf events := framesOf_run encoder events d
  rw [← hframes] at hids hbound
  obtain ⟨hsession, hrecords⟩ := core_of_new hnew
  have hnumbering : d.core.numbering = .new := by
    rw [core, hlogger]
    rfl
  have hhanded : d.logger.handed = [] := by
    rw [hlogger]
    rfl
  have hrun : Core.Run d.core notes (d.run encoder events).2.core := run_core encoder events .nil
  have hhoused := Core.Housed.run hrun hsession hrecords
  have hnumbered := Core.Numbered.run hrun hsession hrecords hnumbering hids
  refine ⟨?_, ?_, ?_, ?_, ?_⟩
  · intro s first later hjobs
    exact hnumbered.of_session hids hjobs
  · intro job hjob
    obtain ⟨first, -, -, hnumber⟩ := hnumbered.exact_number job hjob
    have hsmall := hbound _ (hnumbered.mem_framesOf hjob)
    omega
  · refine hnumbered.nodup_names hhoused hids ?_
    intro a b heq
    obtain ⟨hpath, hnumber⟩ := Prod.mk.inj heq
    exact ⟨Session.started_eq_of_relativePath_eq hpath, hnumber⟩
  · intro extension
    refine hnumbered.nodup_names hhoused hids ?_
    intro a b heq
    exact Session.eq_of_framePath_eq heq
  · rintro earlier later rfl s name content
    have hplaces := hnumbered.nodup_places hids
    have hsplit := run_append encoder earlier later d
    have hnotes : notes = _ := congrArg Prod.fst hsplit
    rw [hnotes] at hplaces
    have hstart : Images encoder [] d := .of_new hhanded hsession
    have hbefore := (hstart.run earlier
      (hplaces.sublist ((jobsOf_sublist_append _ _).map Job.place))).1
    rw [hsplit]
    exact (hbefore.run later hplaces).2 s name content

/-- A snap, and a recording that begins while it waits and goes on when its frame is
drained: the paths are different, and the first image stays. -/
theorem images_kept_of_two_drains :
    let events : List Event :=
      [⟨.snap, 0, none⟩, ⟨.setRecording true, 0, none⟩,
        ⟨.drain false ⟨.full 1 1 3 0, [7]⟩, 0, none⟩, ⟨.setRecording false, 0, none⟩,
        ⟨.drain false ⟨.full 1 1 5 0, [7]⟩, 0, none⟩]
    let jobs := jobsOf (scripted.run (.raw "raw" []) events).1
    Recording.new "frames" (.folder [] []) = .ok scripted.recording ∧
      jobs.map (fun job => (job.session.id, job.number)) = [(2, 1), (2, 3)] ∧
      (∀ extension,
        (jobs.map fun job => job.session.framePath "frames" job.number extension).Nodup) ∧
      (scripted.run (.raw "raw" []) events).2.Holds ⟨2, 1⟩ "00001_frame.raw" (.raw [7]) := by
  have hnew : Recording.new "frames" (.folder [] []) = .ok scripted.recording := rfl
  intro events jobs
  obtain ⟨-, -, -, hpaths, hkept⟩ := numbers_exact_and_images_kept (.raw "raw" []) hnew rfl events
    (by decide) (by decide)
  refine ⟨hnew, rfl, hpaths, ?_⟩
  have hfirst : (scripted.run (.raw "raw" []) (events.take 3)).2.Holds ⟨2, 1⟩ "00001_frame.raw"
      (.raw [7]) :=
    ⟨_, List.mem_cons_of_mem _ List.mem_cons_self, rfl, List.mem_cons_self⟩
  exact hkept (events.take 3) (events.drop 3) rfl _ _ _ hfirst

end Desk

end FrameServer
