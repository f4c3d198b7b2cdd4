import FrameServer.Proofs.Recording.Core

/-!
# FrameServer.Proofs.Recording.Sessions — the sessions that a run meets

A run meets the session that frames go into, those that snaps opened, and those
that jobs were made for. No two of them share a number or a folder, whoever makes the
calls to the recording. At a desk each of them has a folder, and there is one whenever a
frame is to be recorded.

1. **Notes**: the sessions, frames and jobs in them.
2. **Changes**: what an event can do to the session and to the numbering, at a desk or
   elsewhere.
3. **Sessions**: the invariant, and what keeps it.
4. **Housed sessions**: what holds of them at a desk besides.
-/

namespace FrameServer

/-! ## Notes -/

/-- The jobs in a row of notes. -/
def jobsOf (notes : List Note) : List Logger.Job := notes.filterMap Note.job?

/-- The drained frames in a row of notes. -/
def framesOf (notes : List Note) : List Frame := notes.filterMap Note.frame?

theorem jobsOf_snoc (notes : List Note) (note : Note) :
    jobsOf (notes ++ [note]) = jobsOf notes ++ note.job?.toList := by
  rw [jobsOf, List.filterMap_append]
  cases hjob : note.job? <;> simp [jobsOf, hjob]

theorem jobsOf_of_no_job {notes : List Note} {note : Note} (hnote : note.job? = none) :
    jobsOf (notes ++ [note]) = jobsOf notes := by
  rw [jobsOf_snoc, hnote, Option.toList_none, List.append_nil]

theorem framesOf_snoc (notes : List Note) (note : Note) :
    framesOf (notes ++ [note]) = framesOf notes ++ note.frame?.toList := by
  rw [framesOf, List.filterMap_append]
  cases hframe : note.frame? <;> simp [framesOf, hframe]

namespace Note

variable {note : Note}

theorem session?_of_job? {job : Logger.Job} (h : note.job? = some job) :
    note.session? = some job.session := by
  cases note with
  | drained frame on job? =>
    have hjob : job? = some job := h
    rw [hjob, session?]
  | enabled => cases h
  | snapped s => cases h
  | other => cases h

theorem job?_of_no_session (h : note.session? = none) : note.job? = none := by
  cases hjob : note.job? with
  | none => rfl
  | some job =>
    rw [session?_of_job? hjob] at h
    cases h

end Note

/-! ## Changes -/

namespace Core

variable {notes : List Note} {c c' : Core} {note : Note}

/-- The session is the present one or in the notes. -/
def Met (notes : List Note) (c : Core) (s : Session) : Prop :=
  c.session = some s ∨ ∃ note ∈ notes, note.session? = some s

theorem met_snoc {s : Session} (h : Met (notes ++ [note]) c' s) :
    c'.session = some s ∨ (∃ n ∈ notes, n.session? = some s) ∨ note.session? = some s := by
  rcases h with hpresent | ⟨n, hn, hs⟩
  · exact .inl hpresent
  · rcases List.mem_append.mp hn with hold | hnew
    · exact .inr (.inl ⟨n, hold, hs⟩)
    · rw [List.mem_singleton.mp hnew] at hs
      exact .inr (.inr hs)

theorem met_of_job {job : Logger.Job} (hjob : job ∈ jobsOf notes) : Met notes c job.session := by
  obtain ⟨note, hnote, heq⟩ := List.mem_filterMap.mp hjob
  exact .inr ⟨note, hnote, Note.session?_of_job? heq⟩

/-- An event that brings in no session meets none that was not met before. -/
theorem met_same (hsession : ∀ s, c'.session = some s → c.session = some s)
    (hnote : ∀ s, note.session? = some s → c.session = some s) {s : Session}
    (hs : Met (notes ++ [note]) c' s) : Met notes c s := by
  rcases met_snoc hs with hpresent | hold | hnew
  · exact .inl (hsession s hpresent)
  · exact .inr hold
  · exact .inl (hnote s hnew)

/-- Recording that was switched off is on for a snap only. -/
theorem records_of_ended (h : records { c with enabled := false } = true) : c.records = true := by
  rw [records, Bool.false_or] at h
  rw [records, h, Bool.or_true]

/-- What an event can do to the session and to the numbering, whatever it comes to: a
session is opened, or none is and perhaps the present one is given up, a frame is
recorded into it, or a row of numbers is broken while nothing is to be recorded. -/
inductive Change (c : Core) : Note → Core → Prop where
  | opened {note : Note} {c' : Core} (s : Session) (hs : c.Fresh s) (hjob : note.job? = none)
      (hnote : ∀ t, note.session? = some t → t = s) (hsession : c'.session = some s)
      (hnext : c'.nextId = c.nextId + 1) (hknown : c'.known = c.known ++ [s])
      (hnumbering : c'.numbering = c.numbering) : Change c note c'
  | kept {note : Note} {c' : Core} (hnote : note.session? = none)
      (hsession : ∀ s, c'.session = some s → c.session = some s)
      (hrecords : c'.records = true → c.records = true) (hnext : c.nextId ≤ c'.nextId)
      (hknown : ∀ s ∈ c'.known, s ∈ c.known) (hnumbering : c'.numbering = c.numbering) :
      Change c note c'
  | recorded (frame : Frame) (s : Session) (elapsed : Binary64) (hrecord : c.records = true)
      (hs : c.session = some s) :
      Change c
        (.drained frame c.enabled
          (some ⟨frame, (c.numbering.assign frame.header s.id).1.1, elapsed, s⟩))
        (c.number frame s)
  | skipped (frame : Frame) (hidle : c.records = false) :
      Change c (.drained frame false none) { c with numbering := c.numbering.boundary }

/-- Every step at a desk is such a change. -/
theorem Step.change (hstep : Step c note c') : Change c note c' := by
  cases hstep with
  | begun s hoff hs => exact .opened s hs rfl (by rintro t ⟨⟩) rfl rfl rfl rfl
  | stillOn hon => exact .kept rfl (fun _ => id) id (Nat.le_refl _) (fun _ => id) rfl
  | snapped s hidle hs =>
    exact .opened s hs rfl (fun t ht => (Option.some.inj ht).symm) rfl rfl rfl rfl
  | cancelled hidle =>
    refine .kept rfl (by rintro s ⟨⟩) ?_ (Nat.le_succ _) (fun _ => id) rfl
    intro hrecords
    rw [records, Bool.or_false] at hrecords
    rw [records, hrecords, Bool.true_or]
  | failed => exact .kept rfl (fun _ => id) id (Nat.le_succ _) (fun _ => id) rfl
  | ended =>
    exact .kept rfl (fun _ => id) records_of_ended (Nat.le_refl _) (fun _ => id) rfl
  | unchanged => exact .kept rfl (fun _ => id) id (Nat.le_refl _) (fun _ => id) rfl
  | recorded frame s elapsed hrecord hs => exact .recorded frame s elapsed hrecord hs
  | lost frame hrecord hs =>
    exact .kept rfl (fun _ => id) (fun _ => hrecord) (Nat.le_refl _) (fun _ => id) rfl
  | skipped frame hidle => exact .skipped frame hidle

/-- A change opens a session, or it meets no new one. -/
theorem Change.opens (notes : List Note) (hchange : Change c note c') :
    (∃ t, c.Fresh t ∧ c'.known = c.known ++ [t] ∧ c'.nextId = c.nextId + 1 ∧
        ∀ s, Met (notes ++ [note]) c' s → Met notes c s ∨ s = t) ∨
      (∀ s ∈ c'.known, s ∈ c.known) ∧ c.nextId ≤ c'.nextId ∧
        ∀ s, Met (notes ++ [note]) c' s → Met notes c s := by
  cases hchange with
  | opened t ht hjob hnote hsession hnext hknown hnumbering =>
    refine .inl ⟨t, ht, hknown, hnext, ?_⟩
    intro s hs
    rcases met_snoc hs with hpresent | hold | hnew
    · exact .inr (Option.some.inj (hpresent.symm.trans hsession))
    · exact .inl (.inr hold)
    · exact .inr (hnote s hnew)
  | kept hnote hsession hrecords hnext hknown hnumbering =>
    refine .inr ⟨hknown, hnext, fun _ => met_same hsession ?_⟩
    rw [hnote]
    rintro s ⟨⟩
  | recorded frame t elapsed hrecord ht =>
    refine .inr ⟨fun _ => id, Nat.le_refl _, fun _ => met_same (fun _ => id) ?_⟩
    -- the job that the frame became is one of the present session
    intro s hs
    exact ht.trans hs
  | skipped frame hidle =>
    exact .inr ⟨fun _ => id, Nat.le_refl _, fun _ => met_same (fun _ => id) (by rintro s ⟨⟩)⟩

/-- What is met after a change was met before it, or is new and has a folder. -/
theorem Change.met (hchange : Change c note c') {s : Session} (hs : Met (notes ++ [note]) c' s) :
    Met notes c s ∨ c.Fresh s ∧ s ∈ c'.known := by
  rcases hchange.opens notes with ⟨t, ht, hknown, -, hmet⟩ | ⟨-, -, hmet⟩
  · rcases hmet s hs with hold | rfl
    · exact .inl hold
    · rw [hknown]
      exact .inr ⟨ht, List.mem_append_right _ List.mem_cons_self⟩
  · exact .inl (hmet s hs)

/-! ## Sessions -/

/-- The sessions that were met are told apart by their numbers, and those that have a
folder by the moments at which they were started. -/
structure Sessions (notes : List Note) (c : Core) : Prop where
  lt : ∀ s, Met notes c s → s.id < c.nextId
  distinct : ∀ s t, Met notes c s → Met notes c t →
    s.id = t.id ∨ s ∈ c.known ∧ t ∈ c.known ∧ s.started = t.started → s = t

namespace Sessions

/-- The number of a session that is about to be opened was not met before. -/
theorem id_ne_of_fresh (h : Sessions notes c) {s t : Session} (hs : c.Fresh s)
    (ht : Met notes c t) : t.id ≠ s.id := by
  rw [hs.id_eq]
  exact Nat.ne_of_lt (h.lt t ht)

/-- A session that is about to be opened was not met before. -/
theorem not_met_of_fresh (h : Sessions notes c) {s : Session} (hs : c.Fresh s) :
    ¬ Met notes c s := by
  intro hmet
  exact h.id_ne_of_fresh hs hmet rfl

/-- Every change keeps the sessions apart. -/
theorem change (h : Sessions notes c) (hchange : Change c note c') :
    Sessions (notes ++ [note]) c' := by
  rcases hchange.opens notes with ⟨t, ht, hknown, hnext, hmet⟩ | ⟨hknown, hnext, hmet⟩
  · have hold : ∀ s, Met notes c s → s ∈ c'.known → s ∈ c.known := by
      intro s hs hmem
      rw [hknown, List.mem_append, List.mem_singleton] at hmem
      rcases hmem with hmem | rfl
      · exact hmem
      · exact absurd hs (h.not_met_of_fresh ht)
    -- a session that was met before has neither the number nor the moment of the new one
    have hother : ∀ s, Met notes c s →
        ¬ (s.id = t.id ∨ s ∈ c'.known ∧ t ∈ c'.known ∧ s.started = t.started) := by
      rintro s hs (hid | ⟨hmem, -, hstarted⟩)
      · exact h.id_ne_of_fresh ht hs hid
      · exact ht.started_ne s (hold s hs hmem) hstarted
    refine ⟨?_, ?_⟩
    · intro s hs
      rw [hnext]
      rcases hmet s hs with hs | rfl
      · exact Nat.lt_succ_of_lt (h.lt s hs)
      · exact Nat.lt_succ_of_le (Nat.le_of_eq ht.id_eq)
    · intro s u hs hu heq
      rcases hmet s hs with hs | rfl <;> rcases hmet u hu with hu | rfl
      · refine h.distinct s u hs hu (heq.imp_right ?_)
        rintro ⟨hmem, hmem', hstarted⟩
        exact ⟨hold s hs hmem, hold u hu hmem', hstarted⟩
      · exact absurd heq (hother s hs)
      · refine absurd (heq.imp Eq.symm ?_) (hother u hu)
        rintro ⟨hmem, hmem', hstarted⟩
        exact ⟨hmem', hmem, hstarted.symm⟩
      · rfl
  · refine ⟨fun s hs => Nat.lt_of_lt_of_le (h.lt s (hmet s hs)) hnext, ?_⟩
    intro s u hs hu heq
    refine h.distinct s u (hmet s hs) (hmet u hu) (heq.imp_right ?_)
    rintro ⟨hmem, hmem', hstarted⟩
    exact ⟨hknown s hmem, hknown u hmem', hstarted⟩

/-- A core without any session has met none. -/
theorem of_new {c : Core} (hsession : c.session = none) : Sessions [] c := by
  have hnone : ∀ s, ¬ Met [] c s := by
    rintro s (hs | ⟨note, hmem, -⟩)
    · rw [hsession] at hs
      cases hs
    · cases hmem
  exact ⟨fun s hs => absurd hs (hnone s), fun s _ hs => absurd hs (hnone s)⟩

end Sessions

/-! ## Housed sessions -/

/-- The sessions that were met have folders, and there is one for the frames that are to
be recorded. -/
structure Housed (notes : List Note) (c : Core) : Prop extends Sessions notes c where
  known : ∀ s, Met notes c s → s ∈ c.known
  live : c.records = true → ∃ s, c.session = some s

/-- A step at a desk takes no folder away, and there is a session for the frames after it
if there was one before. -/
theorem Step.housed (hstep : Step c note c') (hlive : c.records = true → ∃ s, c.session = some s) :
    (∀ s ∈ c.known, s ∈ c'.known) ∧ (c'.records = true → ∃ s, c'.session = some s) := by
  cases hstep with
  | begun s hoff hs => exact ⟨fun _ => List.mem_append_left _, fun _ => ⟨s, rfl⟩⟩
  | stillOn hon => exact ⟨fun _ => id, hlive⟩
  | snapped s hidle hs => exact ⟨fun _ => List.mem_append_left _, fun _ => ⟨s, rfl⟩⟩
  | cancelled hidle =>
    refine ⟨fun _ => id, fun hrecords => ?_⟩
    rw [records, Bool.or_false] at hrecords
    rw [records, hrecords] at hidle
    cases hidle
  | failed => exact ⟨fun _ => id, hlive⟩
  | ended =>
    exact ⟨fun _ => id, fun hrecords => hlive (records_of_ended hrecords)⟩
  | unchanged => exact ⟨fun _ => id, hlive⟩
  | recorded frame s elapsed hrecord hs => exact ⟨fun _ => id, fun _ => ⟨s, hs⟩⟩
  | lost frame hrecord hs => exact ⟨fun _ => id, fun _ => hlive hrecord⟩
  | skipped frame hidle => exact ⟨fun _ => id, hlive⟩

namespace Housed

/-- Sessions that were started at one moment are one session. -/
theorem eq_of_started (h : Housed notes c) {s t : Session} (hs : Met notes c s)
    (ht : Met notes c t) (hstarted : s.started = t.started) : s = t :=
  h.distinct s t hs ht (.inr ⟨h.known s hs, h.known t ht, hstarted⟩)

theorem step (h : Housed notes c) (hstep : Step c note c') : Housed (notes ++ [note]) c' := by
  obtain ⟨hknown, hlive⟩ := hstep.housed h.live
  refine ⟨h.toSessions.change hstep.change, ?_, hlive⟩
  intro s hs
  rcases hstep.change.met hs with hold | ⟨-, hnew⟩
  · exact hknown s (h.known s hold)
  · exact hnew

theorem run {start : Core} (hrun : Run start notes c) (hsession : start.session = none)
    (hrecords : start.records = false) : Housed notes c := by
  induction hrun with
  | nil =>
    refine ⟨.of_new hsession, ?_, ?_⟩
    · rintro s (hs | ⟨note, hmem, -⟩)
      · rw [hsession] at hs
        cases hs
      · cases hmem
    · rw [hrecords]
      rintro ⟨⟩
  | snoc _ hstep ih => exact ih.step hstep

end Housed

end Core

end FrameServer
