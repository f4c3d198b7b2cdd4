import FrameServer.Proofs.Recording.Names
import FrameServer.Proofs.Recording.Sessions

/-!
# FrameServer.Proofs.Recording.Numbers — the numbers of recorded frames

In a run whose drained frames have increasing numbers of their own, each frame of a
session gets the number that it has counted from the first one of its session. So
the numbers of a session increase, and no two images of a run have one place. At a desk
no two of them have one path.

1. **First frames** of sessions.
2. **Numbering**: the invariant. A row of numbers is broken only while nothing is
   to be recorded, and what is recorded after that goes into a new session.
3. **Places** and paths.
-/

namespace FrameServer

open Logger (Job)

/-- The number of a frame in its stream. -/
def Frame.id (f : Frame) : Nat := f.header.frameId.toNat

/-- The frame that an act drains. -/
def Act.frame? : Act → Option Frame
  | drain _ frame => some frame
  | _ => none

/-- The numbers of a session other than the one that was numbered last start with
the frame at hand. -/
theorem Numbering.baselineFor_of_ne {n : Numbering} {id : Nat} (hid : n.session ≠ some id)
    (h : Header) : n.baselineFor h id = (h.frameId.toNat, h.timestamp.toNat) := by
  unfold baselineFor
  cases n.baseline with
  | none => rfl
  | some base => exact if_neg fun hcond => hid hcond.1

theorem Numbering.number_of_ne {n : Numbering} {id : Nat} (hid : n.session ≠ some id)
    (h : Header) : (n.assign h id).1.1 = 1 := by
  rw [assign, baselineFor_of_ne hid]
  exact congrArg (· + 1) (Nat.sub_self _)

/-- What decides where the image of a job goes. -/
def Logger.Job.place (job : Job) : Session × Nat := (job.session, job.number)

/-! ## First frames -/

/-- The jobs of a session. -/
def jobsIn (s : Session) (notes : List Note) : List Job :=
  (jobsOf notes).filter (·.session = s)

theorem mem_jobsIn {s : Session} {notes : List Note} {job : Job} :
    job ∈ jobsIn s notes ↔ job ∈ jobsOf notes ∧ job.session = s := by
  rw [jobsIn, List.mem_filter, decide_eq_true_iff]

theorem jobsIn_snoc (s : Session) (notes : List Note) (note : Note) :
    jobsIn s (notes ++ [note]) = jobsIn s notes ++ note.job?.toList.filter (·.session = s) := by
  rw [jobsIn, jobsOf_snoc, List.filter_append, jobsIn]

theorem jobsIn_of_no_job {s : Session} {notes : List Note} {note : Note}
    (hnote : note.job? = none) : jobsIn s (notes ++ [note]) = jobsIn s notes := by
  rw [jobsIn, jobsOf_of_no_job hnote, jobsIn]

/-- The first job of a session stays the first one. -/
theorem head?_jobsIn_snoc {s : Session} {notes : List Note} {first : Job} (note : Note)
    (hfirst : (jobsIn s notes).head? = some first) :
    (jobsIn s (notes ++ [note])).head? = some first := by
  rw [jobsIn_snoc, List.head?_append, hfirst, Option.some_or]

namespace Core

variable {notes : List Note} {c c' : Core} {note : Note}

/-! ## Numbering -/

/-- Jobs are numbered from the first one of their session, and as long as more
frames may come into it, the numbering goes on from there. -/
structure Numbered (notes : List Note) (c : Core) : Prop where
  exact_number : ∀ job ∈ jobsOf notes, ∃ first, (jobsIn job.session notes).head? = some first ∧
    first.frame.id ≤ job.frame.id ∧ job.number = job.frame.id - first.frame.id + 1
  baseline : c.records = true → ∀ s first, c.session = some s →
    (jobsIn s notes).head? = some first →
      c.numbering = ⟨some (first.frame.id, first.frame.header.timestamp.toNat), some s.id⟩
  counted : ∀ id, c.numbering.session = some id → ∃ job ∈ jobsOf notes, job.session.id = id
  drained : ((jobsOf notes).map Job.frame).Sublist (framesOf notes)

namespace Numbered

theorem mem_framesOf (h : Numbered notes c) {job : Job} (hjob : job ∈ jobsOf notes) :
    job.frame ∈ framesOf notes :=
  h.drained.subset (List.mem_map_of_mem hjob)

theorem mem_jobsOf_of_head? {s : Session} {first : Job}
    (hfirst : (jobsIn s notes).head? = some first) :
    first ∈ jobsOf notes ∧ first.session = s :=
  mem_jobsIn.mp (List.mem_of_mem_head? hfirst)

/-- An event that makes no job. -/
theorem without_job (h : Numbered notes c) (hjob : note.job? = none)
    (hsession : c'.numbering.session = c.numbering.session)
    (hbaseline : c'.records = true → ∀ s first, c'.session = some s →
      (jobsIn s notes).head? = some first →
        c'.numbering = ⟨some (first.frame.id, first.frame.header.timestamp.toNat), some s.id⟩) :
    Numbered (notes ++ [note]) c' := by
  have hjobs : jobsOf (notes ++ [note]) = jobsOf notes := jobsOf_of_no_job hjob
  refine ⟨?_, ?_, ?_, ?_⟩
  · intro job hmem
    rw [hjobs] at hmem
    rw [jobsIn_of_no_job hjob]
    exact h.exact_number job hmem
  · intro hrecords s first hs hfirst
    rw [jobsIn_of_no_job hjob] at hfirst
    exact hbaseline hrecords s first hs hfirst
  · intro id hid
    rw [hjobs]
    exact h.counted id (hsession ▸ hid)
  · rw [hjobs, framesOf_snoc]
    exact h.drained.trans (List.sublist_append_left _ _)

/-- An event that opens a session. -/
theorem enter (h : Numbered notes c) (hsessions : Sessions notes c) {s : Session}
    (hs : c.Fresh s) (hjob : note.job? = none) (hnumbering : c'.numbering = c.numbering)
    (hsession : c'.session = some s) : Numbered (notes ++ [note]) c' := by
  refine h.without_job hjob (by rw [hnumbering]) ?_
  intro _ t first ht hfirst
  rw [hsession] at ht
  cases ht
  obtain ⟨hmem, rfl⟩ := mem_jobsOf_of_head? hfirst
  exact absurd (met_of_job hmem) (hsessions.not_met_of_fresh hs)

/-- An event that makes no job and opens no session. -/
theorem stay (h : Numbered notes c) (hjob : note.job? = none)
    (hnumbering : c'.numbering = c.numbering)
    (hsession : ∀ s, c'.session = some s → c.session = some s)
    (hrecords : c'.records = true → c.records = true) : Numbered (notes ++ [note]) c' := by
  refine h.without_job hjob (by rw [hnumbering]) ?_
  intro hrec s first hs hfirst
  rw [hnumbering]
  exact h.baseline (hrecords hrec) s first (hsession s hs) hfirst

/-- The first frame of a session, which may be the one that comes now. -/
def origin (s : Session) (notes : List Note) (frame : Frame) : Frame :=
  match (jobsIn s notes).head? with
  | none => frame
  | some first => first.frame

/-- A frame of the present session is numbered from the first frame of that
session. -/
theorem baselineFor_eq (h : Numbered notes c) (hsessions : Sessions notes c) {frame : Frame}
    {s : Session} (hrecord : c.records = true) (hs : c.session = some s)
    (hlater : ∀ earlier ∈ framesOf notes, earlier.id < frame.id) :
    c.numbering.baselineFor frame.header s.id =
      ((origin s notes frame).id, (origin s notes frame).header.timestamp.toNat) := by
  unfold origin
  cases hfirst : (jobsIn s notes).head? with
  | some first =>
    have hmem := (mem_jobsOf_of_head? hfirst).1
    have hle : first.frame.id ≤ frame.header.frameId.toNat :=
      Nat.le_of_lt (hlater _ (h.mem_framesOf hmem))
    rw [h.baseline hrecord s first hs hfirst]
    exact if_pos ⟨rfl, hle⟩
  | none =>
    -- the session that was numbered last has a job, and this one has none
    have hother : c.numbering.session ≠ some s.id := by
      intro hid
      obtain ⟨job, hmem, heq⟩ := h.counted s.id hid
      have hsame := hsessions.distinct _ s (met_of_job hmem) (.inl hs) (.inl heq)
      rw [List.head?_eq_none_iff] at hfirst
      have hin := mem_jobsIn.mpr ⟨hmem, hsame⟩
      rw [hfirst] at hin
      cases hin
    exact Numbering.baselineFor_of_ne hother frame.header

theorem origin_le {frame : Frame} {s : Session} (h : Numbered notes c)
    (hlater : ∀ earlier ∈ framesOf notes, earlier.id < frame.id) :
    (origin s notes frame).id ≤ frame.id := by
  unfold origin
  cases hfirst : (jobsIn s notes).head? with
  | none => exact Nat.le_refl _
  | some first =>
    exact Nat.le_of_lt (hlater _ (h.mem_framesOf (mem_jobsOf_of_head? hfirst).1))

/-- The first job of a session after one more frame of it became a job. -/
theorem head?_jobsIn_record (notes : List Note) {s : Session} {job : Job}
    (hjob : note.job? = some job) (hs : job.session = s) :
    ∃ first, (jobsIn s (notes ++ [note])).head? = some first ∧
      first.frame = origin s notes job.frame := by
  have hjobs : jobsIn s (notes ++ [note]) = jobsIn s notes ++ [job] := by
    have hkeep : [job].filter (fun job => decide (job.session = s)) = [job] := by simp [hs]
    rw [jobsIn_snoc, hjob, Option.toList_some, hkeep]
  rw [hjobs, List.head?_append]
  unfold origin
  cases (jobsIn s notes).head? with
  | none => exact ⟨job, rfl, rfl⟩
  | some first => exact ⟨first, rfl, rfl⟩

/-- A frame that becomes a job. -/
theorem record (h : Numbered notes c) (hsessions : Sessions notes c) {frame : Frame}
    {s : Session} {job : Job} (hrecord : c.records = true) (hs : c.session = some s)
    (hlater : ∀ earlier ∈ framesOf notes, earlier.id < frame.id)
    (hnote : note.job? = some job) (hdrained : note.frame? = some frame)
    (hframe : job.frame = frame) (hsession : job.session = s)
    (hnumber : job.number = (c.numbering.assign frame.header s.id).1.1) :
    Numbered (notes ++ [note]) (c.number frame s) := by
  subst hframe
  have hbase := h.baselineFor_eq hsessions hrecord hs hlater
  have hle := h.origin_le (s := s) hlater
  obtain ⟨first, hfirst, horigin⟩ := head?_jobsIn_record notes hnote hsession
  rw [← horigin] at hbase hle
  have hjobs : jobsOf (notes ++ [note]) = jobsOf notes ++ [job] := by
    rw [jobsOf_snoc, hnote, Option.toList_some]
  refine ⟨?_, ?_, ?_, ?_⟩
  · -- earlier jobs keep the first one of their session
    intro other hmem
    rw [hjobs, List.mem_append, List.mem_singleton] at hmem
    rcases hmem with hold | rfl
    · obtain ⟨begin, hbegin, hexact⟩ := h.exact_number other hold
      exact ⟨begin, head?_jobsIn_snoc note hbegin, hexact⟩
    · refine ⟨first, hsession ▸ hfirst, hle, ?_⟩
      rw [hnumber, Numbering.assign, hbase]
      rfl
  · intro _ t begin ht hbegin
    have hsame : s = t := Option.some.inj (hs.symm.trans ht)
    rw [← hsame] at hbegin ⊢
    rw [hfirst] at hbegin
    rw [← Option.some.inj hbegin, number, Numbering.assign, hbase]
  · intro id hid
    refine ⟨job, by rw [hjobs]; exact List.mem_append_right _ List.mem_cons_self, ?_⟩
    rw [hsession]
    exact Option.some.inj hid
  · rw [hjobs, List.map_append, framesOf_snoc, hdrained]
    exact h.drained.append (List.Sublist.refl _)

/-- Every change keeps the numbers exact, if a drained frame is later than all those
before it. -/
theorem change (h : Numbered notes c) (hsessions : Sessions notes c) (hchange : Change c note c')
    (hlater : ∀ frame, note.frame? = some frame →
      ∀ earlier ∈ framesOf notes, earlier.id < frame.id) : Numbered (notes ++ [note]) c' := by
  cases hchange with
  | opened s hs hjob hnote hsession hnext hknown hnumbering =>
    exact h.enter hsessions hs hjob hnumbering hsession
  | kept hnote hsession hrecords hnext hknown hnumbering =>
    exact h.stay (Note.job?_of_no_session hnote) hnumbering hsession hrecords
  | recorded frame s elapsed hrecord hs =>
    exact h.record hsessions hrecord hs (hlater frame rfl) rfl rfl rfl rfl rfl
  | skipped frame hidle =>
    -- the row of numbers is broken, but nothing is to be recorded now
    refine h.without_job rfl rfl ?_
    intro hrecords
    rw [records] at hrecords hidle
    rw [hidle] at hrecords
    cases hrecords

/-- A core that has numbered nothing and records nothing. -/
theorem of_new {c : Core} (hrecords : c.records = false) (hnumbering : c.numbering = .new) :
    Numbered [] c := by
  refine ⟨by rintro job ⟨⟩, ?_, ?_, List.Sublist.refl _⟩
  · rw [hrecords]
    rintro ⟨⟩
  · rw [hnumbering]
    rintro id ⟨⟩

theorem run {start : Core} (hrun : Run start notes c) (hsession : start.session = none)
    (hrecords : start.records = false) (hnumbering : start.numbering = .new)
    (hids : (framesOf notes).Pairwise fun f g => f.id < g.id) : Numbered notes c := by
  induction hrun with
  | nil => exact of_new hrecords hnumbering
  | snoc hbefore hstep ih =>
    rw [framesOf_snoc, List.pairwise_append] at hids
    obtain ⟨hbeforeIds, -, hlater⟩ := hids
    have hhoused := Housed.run hbefore hsession hrecords
    refine (ih hbeforeIds).change hhoused.toSessions hstep.change ?_
    intro frame hframe earlier hearlier
    refine hlater earlier hearlier frame ?_
    rw [hframe]
    exact List.mem_cons_self

/-- The numbers of a session increase. -/
theorem increasing (h : Numbered notes c)
    (hids : (framesOf notes).Pairwise fun f g => f.id < g.id) :
    (jobsOf notes).Pairwise fun a b => a.session = b.session → a.number < b.number := by
  -- the frames of the jobs are some of the drained ones, in their order
  have hframes : (jobsOf notes).Pairwise fun a b => a.frame.id < b.frame.id := by
    have hsublist := hids.sublist h.drained
    rwa [List.pairwise_map] at hsublist
  refine hframes.imp_of_mem ?_
  intro a b ha hb hless hsession
  obtain ⟨first, hfirst, hle, hnumber⟩ := h.exact_number a ha
  obtain ⟨first', hfirst', -, hnumber'⟩ := h.exact_number b hb
  rw [← hsession, hfirst] at hfirst'
  cases hfirst'
  omega

/-- The numbers of a session: one for its first frame, and for each later frame
the number that it has counted from the first one. -/
theorem of_session (h : Numbered notes c)
    (hids : (framesOf notes).Pairwise fun f g => f.id < g.id) {s : Session} {first : Job}
    {later : List Job} (hjobs : jobsIn s notes = first :: later) :
    first.number = 1 ∧
      (∀ job ∈ later, first.frame.id < job.frame.id ∧
        job.number = job.frame.id - first.frame.id + 1) ∧
      (first :: later).Pairwise fun a b => a.number < b.number := by
  have hincreasing : (first :: later).Pairwise fun a b => a.number < b.number := by
    rw [← hjobs]
    refine ((h.increasing hids).filter _).imp_of_mem ?_
    intro a b ha hb hless
    exact hless ((mem_jobsIn.mp ha).2.trans (mem_jobsIn.mp hb).2.symm)
  have hexact : ∀ job ∈ first :: later, first.frame.id ≤ job.frame.id ∧
      job.number = job.frame.id - first.frame.id + 1 := by
    intro job hjob
    rw [← hjobs, mem_jobsIn] at hjob
    obtain ⟨hmem, hsame⟩ := hjob
    obtain ⟨begin, hbegin, hnumber⟩ := h.exact_number job hmem
    rw [hsame, hjobs, List.head?_cons] at hbegin
    cases hbegin
    exact hnumber
  have hone : first.number = 1 := by
    have hfirst := (hexact first List.mem_cons_self).2
    rwa [Nat.sub_self] at hfirst
  refine ⟨hone, ?_, hincreasing⟩
  intro job hjob
  obtain ⟨hle, hnumber⟩ := hexact job (List.mem_cons_of_mem first hjob)
  have hless := List.rel_of_pairwise_cons hincreasing hjob
  exact ⟨by omega, hnumber⟩

/-! ## Places -/

/-- No two jobs have one place. -/
theorem nodup_places (h : Numbered notes c)
    (hids : (framesOf notes).Pairwise fun f g => f.id < g.id) :
    ((jobsOf notes).map Job.place).Nodup := by
  rw [List.nodup_iff_pairwise_ne, List.pairwise_map]
  refine (h.increasing hids).imp ?_
  intro a b hless heq
  obtain ⟨hsession, hnumber⟩ := Prod.mk.inj heq
  exact Nat.ne_of_lt (hless hsession) hnumber

/-- What fixes the moment of a session and the number of a frame is different for
every job. -/
theorem nodup_names {α : Type} (h : Numbered notes c) (hhoused : Housed notes c)
    (hids : (framesOf notes).Pairwise fun f g => f.id < g.id) {name : Job → α}
    (hname : ∀ a b, name a = name b →
      a.session.started = b.session.started ∧ a.number = b.number) :
    ((jobsOf notes).map name).Nodup := by
  have hplaces := h.nodup_places hids
  rw [List.nodup_iff_pairwise_ne, List.pairwise_map] at hplaces ⊢
  refine hplaces.imp_of_mem ?_
  intro a b ha hb hne heq
  obtain ⟨hstarted, hnumber⟩ := hname a b heq
  exact hne (Prod.ext (hhoused.eq_of_started (met_of_job ha) (met_of_job hb) hstarted) hnumber)

end Numbered

end Core

namespace Desk

variable {κ : Type}

/-- The frames that are drained in a row of events. -/
def drainsOf (events : List Event) : List Frame := events.filterMap (·.act.frame?)

/-- A recording that was just set up has no session and records nothing. -/
theorem core_of_new {path : String} {root : Root} {d : Desk κ}
    (hnew : Recording.new path root = .ok d.recording) :
    d.core.session = none ∧ d.core.records = false := by
  unfold Recording.new at hnew
  cases hcheck : root.check path with
  | error e =>
    rw [hcheck] at hnew
    cases hnew
  | ok =>
    rw [hcheck] at hnew
    have hrecording := (Except.ok.inj hnew).symm
    rw [core, hrecording]
    exact ⟨rfl, rfl⟩

variable [Camera κ]

theorem frame?_step (encoder : Encoder) (d : Desk κ) (e : Event) :
    (d.step encoder e).1.frame? = e.act.frame? := by
  have hact : ∀ (now : WallTime) (d : Desk κ) (a : Act),
      (d.act encoder now a).1.frame? = a.frame? := by
    intro now d a
    cases a with
    | setRecording on =>
      unfold act
      dsimp only
      split
      · split <;> rfl
      · rfl
    | snap =>
      unfold act
      dsimp only
      split <;> rfl
    | drain handOff frame => rfl
    | finish index =>
      unfold act
      dsimp only
      split <;> rfl
  unfold step
  cases e.outage with
  | none => exact hact e.now d e.act
  | some outage => exact hact e.now (d.withRoot outage.root) e.act

theorem framesOf_run (encoder : Encoder) (events : List Event) (d : Desk κ) :
    framesOf (d.run encoder events).1 = drainsOf events := by
  induction events generalizing d with
  | nil => rfl
  | cons e later ih =>
    have hlater := ih (d.step encoder e).2
    have hnote := frame?_step encoder d e
    unfold framesOf drainsOf at *
    rw [List.filterMap_cons, ← hnote, ← hlater]
    exact List.filterMap_cons

end Desk

end FrameServer
