import Mathlib.Data.List.Induction
import FrameServer.Proofs.Recording.Numbers

/-!
# FrameServer.Proofs.Recording.Snap — what becomes of a snap

A snap asks for the next frame, in a session of its own. The law holds as long as
recording is not switched on while a snap waits for its frame: then the frame goes
into the session that was opened last, and not into the one that the snap opened.

1. **The law** and the runs that keep it.
2. **Waiting snaps**: the snap that a run still owes a frame.
3. **Finished sessions**: a session that records nothing more.
4. **The law holds** exactly in undisturbed runs.
-/

namespace FrameServer

open Logger (Job)

namespace Core

/-! ## The law -/

/-- The session of the newest snap since the last drained frame, one note further. -/
def since (newest : Option Session) : Note → Option Session
  | .snapped s => some s
  | .drained _ _ _ => none
  | _ => newest

/-- The session of the newest snap that was accepted since the last drained frame. -/
def snapSince (notes : List Note) : Option Session := notes.foldl since none

/-- A frame that is drained while recording is off is recorded if a snap was accepted
after the previous frame, as number one of the session that the snap opened, and
nothing else is recorded there. Every other such frame is not recorded. -/
structure SnapLaw (notes : List Note) : Prop where
  snapped : ∀ before frame job? after s, notes = before ++ .drained frame false job? :: after →
    snapSince before = some s →
      ∃ job, job? = some job ∧ job.session = s ∧ job.number = 1 ∧
        ∀ other ∈ jobsOf before ++ jobsOf after, other.session.relativePath ≠ s.relativePath
  skipped : ∀ before frame job? after, notes = before ++ .drained frame false job? :: after →
    snapSince before = none → job? = none

/-- No frame was drained while recording was off. -/
def NoneWhileOff (notes : List Note) : Prop :=
  ∀ frame job?, .drained frame false job? ∉ notes

/-- Recording is not switched on between a snap and the next frame that is drained
while recording is off. -/
def Undisturbed (notes : List Note) : Prop :=
  ∀ before s between frame job? after,
    notes = before ++ .snapped s :: between ++ .drained frame false job? :: after →
      NoneWhileOff between → .enabled ∉ between

/-! ## Waiting snaps -/

/-- The snap that waits for its frame, and whether recording was switched on since,
one note further. -/
def owe (waiting : Option (Session × Bool)) : Note → Option (Session × Bool)
  | .snapped s => waiting.or (some (s, false))
  | .enabled => waiting.map fun w => (w.1, true)
  | .drained _ false _ => none
  | _ => waiting

/-- The snap that waits for its frame, and whether recording was switched on since. -/
def owed (notes : List Note) : Option (Session × Bool) := notes.foldl owe none

variable {notes : List Note} {c c' : Core} {note : Note}

@[simp] theorem snapSince_snoc (notes : List Note) (note : Note) :
    snapSince (notes ++ [note]) = since (snapSince notes) note := by
  rw [snapSince, List.foldl_append]
  rfl

@[simp] theorem owed_snoc (notes : List Note) (note : Note) :
    owed (notes ++ [note]) = owe (owed notes) note := by
  rw [owed, List.foldl_append]
  rfl

theorem NoneWhileOff.snoc (h : NoneWhileOff notes)
    (hnote : ∀ frame job?, note ≠ .drained frame false job?) : NoneWhileOff (notes ++ [note]) := by
  intro frame job? hmem
  rcases List.mem_append.mp hmem with hold | hnew
  · exact h frame job? hold
  · exact hnote frame job? (List.mem_singleton.mp hnew).symm

/-- A snap that waits was accepted at some time, and nothing was drained since while
recording was off. -/
theorem owed_origin {s : Session} {on : Bool} (h : owed notes = some (s, on)) :
    ∃ before between, notes = before ++ .snapped s :: between ∧ NoneWhileOff between ∧
      (on = true → .enabled ∈ between) := by
  induction notes using List.reverseRecOn generalizing s on with
  | nil => cases h
  | append_singleton notes note ih =>
    rw [owed_snoc] at h
    -- the snap waited before the last note
    have hold : ∀ {on'}, owed notes = some (s, on') →
        (∀ frame job?, note ≠ .drained frame false job?) →
        (on = true → on' = true ∨ note = .enabled) →
        ∃ before between, notes ++ [note] = before ++ .snapped s :: between ∧
          NoneWhileOff between ∧ (on = true → .enabled ∈ between) := by
      intro on' howed hnote hon
      obtain ⟨before, between, rfl, hnone, henabled⟩ := ih howed
      refine ⟨before, between ++ [note], by simp, hnone.snoc hnote, ?_⟩
      intro htrue
      rcases hon htrue with hon' | rfl
      · exact List.mem_append_left _ (henabled hon')
      · exact List.mem_append_right _ List.mem_cons_self
    cases note with
    | enabled =>
      obtain ⟨⟨t, on'⟩, howed, heq⟩ := Option.map_eq_some_iff.mp h
      cases heq
      exact hold howed (by rintro _ _ ⟨⟩) fun _ => .inr rfl
    | snapped t =>
      cases howed : owed notes with
      | none =>
        rw [howed] at h
        cases h
        exact ⟨notes, [], rfl, by rintro _ _ ⟨⟩, by rintro ⟨⟩⟩
      | some w =>
        rw [howed] at h
        cases h
        exact hold howed (by rintro _ _ ⟨⟩) .inl
    | drained frame recording job? =>
      cases recording with
      | false => cases h
      | true => exact hold h (by rintro _ _ ⟨⟩) .inl
    | other => exact hold h (by rintro _ _ ⟨⟩) .inl

/-- A snap goes on waiting until a frame is drained while recording is off. -/
theorem foldl_owe {between : List Note} (hnone : NoneWhileOff between) (w : Session × Bool) :
    ∃ on, between.foldl owe (some w) = some (w.1, on) ∧
      (w.2 = true ∨ .enabled ∈ between → on = true) := by
  induction between generalizing w with
  | nil => exact ⟨w.2, rfl, fun h => h.resolve_right List.not_mem_nil⟩
  | cons note later ih =>
    have hlater : NoneWhileOff later := by
      intro frame job? hmem
      exact hnone frame job? (List.mem_cons_of_mem _ hmem)
    -- only switching recording on changes what is said of the snap
    have hsame : owe (some w) note = some w → note ≠ .enabled →
        ∃ on, (note :: later).foldl owe (some w) = some (w.1, on) ∧
          (w.2 = true ∨ .enabled ∈ note :: later → on = true) := by
      intro howe hnote
      obtain ⟨on, hfold, hon⟩ := ih hlater w
      refine ⟨on, by rw [List.foldl_cons, howe, hfold], ?_⟩
      intro h
      apply hon
      refine h.imp_right fun hmem => ?_
      exact (List.mem_cons.mp hmem).resolve_left (Ne.symm hnote)
    cases note with
    | enabled =>
      obtain ⟨on, hfold, hon⟩ := ih hlater (w.1, true)
      exact ⟨on, hfold, fun _ => hon (.inl rfl)⟩
    | snapped s => exact hsame rfl (by rintro ⟨⟩)
    | drained frame recording job? =>
      cases recording with
      | false => exact absurd List.mem_cons_self (hnone frame job?)
      | true => exact hsame rfl (by rintro ⟨⟩)
    | other => exact hsame rfl (by rintro ⟨⟩)

/-- A snap waits exactly while it is pending. Until recording is switched on its
session is the present one, and empty; after that another one is. -/
structure Snaps (notes : List Note) (c : Core) : Prop where
  pending_eq : c.pending = (owed notes).isSome
  counted : ∀ id, c.numbering.session = some id → id < c.nextId
  none_since : owed notes = none → snapSince notes = none
  waiting : ∀ s, owed notes = some (s, false) → c.enabled = false ∧ c.session = some s ∧
    snapSince notes = some s ∧ c.numbering.session ≠ some s.id ∧
      ∀ job ∈ jobsOf notes, job.session ≠ s
  replaced : ∀ s, owed notes = some (s, true) → c.session ≠ some s ∧
    (snapSince notes = none ∨ snapSince notes = some s)

namespace Snaps

theorem met_of_owed {s : Session} {on : Bool} (h : owed notes = some (s, on)) :
    Met notes c s := by
  obtain ⟨before, between, rfl, -, -⟩ := owed_origin h
  exact .inr ⟨.snapped s, by simp, rfl⟩

theorem owed_of_idle (h : Snaps notes c) (hidle : c.pending = false) : owed notes = none := by
  have hpending := h.pending_eq
  rw [hidle] at hpending
  cases howed : owed notes with
  | none => rfl
  | some w =>
    rw [howed] at hpending
    cases hpending

/-- An event that is not about snaps, and does not switch recording on. -/
theorem quiet (h : Snaps notes c) (hpending : c'.pending = c.pending)
    (hnumbering : c'.numbering = c.numbering) (hnext : c.nextId ≤ c'.nextId)
    (hsession : c'.session = c.session) (hoff : c.enabled = false → c'.enabled = false) :
    Snaps (notes ++ [.other]) c' := by
  have howed : owed (notes ++ [.other]) = owed notes := owed_snoc notes .other
  have hsince : snapSince (notes ++ [.other]) = snapSince notes := snapSince_snoc notes .other
  have hjobs : jobsOf (notes ++ [.other]) = jobsOf notes := jobsOf_of_no_job rfl
  refine ⟨?_, ?_, ?_, ?_, ?_⟩
  · rw [hpending, howed]
    exact h.pending_eq
  · rw [hnumbering]
    intro id hid
    exact Nat.lt_of_lt_of_le (h.counted id hid) hnext
  · rw [howed, hsince]
    exact h.none_since
  · rw [howed, hsession, hsince, hnumbering, hjobs]
    intro s hs
    obtain ⟨henabled, hrest⟩ := h.waiting s hs
    exact ⟨hoff henabled, hrest⟩
  · rw [howed, hsession, hsince]
    exact h.replaced

/-- Nothing waits: the last snap was taken or cancelled, or recording is off and there
was none. -/
theorem of_owed_none (howed : owed notes = none) (hpending : c.pending = false)
    (hsince : snapSince notes = none) (hcounted : ∀ id, c.numbering.session = some id →
      id < c.nextId) : Snaps notes c := by
  refine ⟨?_, hcounted, fun _ => hsince, ?_, ?_⟩
  · rw [howed, hpending]
    rfl
  · rw [howed]
    rintro s ⟨⟩
  · rw [howed]
    rintro s ⟨⟩

/-- Switching recording on takes the session away from a snap that waits. -/
theorem switchOn (h : Snaps notes c) (hpending : c'.pending = c.pending)
    (hnumbering : c'.numbering = c.numbering) (hnext : c.nextId ≤ c'.nextId)
    (hsession : ∀ s on, owed notes = some (s, on) → c'.session ≠ some s) :
    Snaps (notes ++ [.enabled]) c' := by
  have howed : owed (notes ++ [.enabled]) = (owed notes).map fun w => (w.1, true) :=
    owed_snoc notes .enabled
  have hsince : snapSince (notes ++ [.enabled]) = snapSince notes :=
    snapSince_snoc notes .enabled
  refine ⟨?_, ?_, ?_, ?_, ?_⟩
  · rw [hpending, howed, Option.isSome_map]
    exact h.pending_eq
  · rw [hnumbering]
    intro id hid
    exact Nat.lt_of_lt_of_le (h.counted id hid) hnext
  · rw [howed, hsince, Option.map_eq_none_iff]
    exact h.none_since
  · intro s hs
    rw [howed] at hs
    obtain ⟨w, -, hw⟩ := Option.map_eq_some_iff.mp hs
    cases hw
  · intro s hs
    rw [howed] at hs
    obtain ⟨⟨t, on⟩, hold, heq⟩ := Option.map_eq_some_iff.mp hs
    cases heq
    refine ⟨hsession t on hold, ?_⟩
    rw [hsince]
    cases on with
    | false => exact .inr (h.waiting t hold).2.2.1
    | true => exact (h.replaced t hold).2

/-- A frame that is drained while recording is on leaves a snap waiting. -/
theorem drainOn (h : Snaps notes c) (hon : c.enabled = true) (frame : Frame)
    (job? : Option Job) (hpending : c'.pending = c.pending) (hsession : c'.session = c.session)
    (hcounted : ∀ id, c'.numbering.session = some id → id < c'.nextId) :
    Snaps (notes ++ [.drained frame true job?]) c' := by
  have howed : owed (notes ++ [.drained frame true job?]) = owed notes :=
    owed_snoc notes (.drained frame true job?)
  have hsince : snapSince (notes ++ [.drained frame true job?]) = none :=
    snapSince_snoc notes (.drained frame true job?)
  refine ⟨?_, hcounted, fun _ => hsince, ?_, ?_⟩
  · rw [hpending, howed]
    exact h.pending_eq
  · rw [howed]
    intro s hs
    rw [(h.waiting s hs).1] at hon
    cases hon
  · rw [howed, hsession]
    intro s hs
    exact ⟨(h.replaced s hs).1, .inl hsince⟩

/-- Every step keeps track of the snap that waits. -/
theorem step (h : Snaps notes c) (hhoused : Housed notes c) (hstep : Step c note c') :
    Snaps (notes ++ [note]) c' := by
  have hsessions := hhoused.toSessions
  cases hstep with
  | begun s hoff hs =>
    refine h.switchOn rfl rfl (Nat.le_succ _) ?_
    intro t on howed heq
    cases heq
    exact hsessions.not_met_of_fresh hs (met_of_owed howed)
  | stillOn hon =>
    refine h.switchOn rfl rfl (Nat.le_refl _) ?_
    intro s on howed
    cases on with
    | false =>
      rw [(h.waiting s howed).1] at hon
      cases hon
    | true => exact (h.replaced s howed).1
  | snapped s hidle hs =>
    obtain ⟨hoff, hpending⟩ := Bool.or_eq_false_iff.mp hidle
    -- a snap is accepted only while no other one waits
    have howed : owed (notes ++ [.snapped s]) = some (s, false) := by
      rw [owed_snoc, h.owed_of_idle hpending]
      rfl
    refine ⟨?_, ?_, ?_, ?_, ?_⟩
    · rw [howed]
      rfl
    · intro id hid
      exact Nat.lt_succ_of_lt (h.counted id hid)
    · rw [howed]
      rintro ⟨⟩
    · rw [howed]
      rintro t ⟨⟩
      refine ⟨hoff, rfl, snapSince_snoc notes (.snapped s), ?_, ?_⟩
      · intro hid
        have hless := h.counted s.id hid
        rw [hs.id_eq] at hless
        exact Nat.lt_irrefl _ hless
      · rw [jobsOf_of_no_job rfl]
        rintro job hjob rfl
        exact hsessions.not_met_of_fresh hs (met_of_job hjob)
    · rw [howed]
      rintro t ⟨⟩
  | cancelled hidle =>
    obtain ⟨hoff, hpending⟩ := Bool.or_eq_false_iff.mp hidle
    have howed := h.owed_of_idle hpending
    refine of_owed_none ((owed_snoc notes .other).trans howed) rfl
      ((snapSince_snoc notes .other).trans (h.none_since howed)) ?_
    intro id hid
    exact Nat.lt_succ_of_lt (h.counted id hid)
  | failed => exact h.quiet rfl rfl (Nat.le_succ _) rfl id
  | ended => exact h.quiet rfl rfl (Nat.le_refl _) rfl fun _ => rfl
  | unchanged => exact h.quiet rfl rfl (Nat.le_refl _) rfl id
  | recorded frame s elapsed hrecord hs =>
    have hcounted : ∀ id, (c.number frame s).numbering.session = some id → id < c.nextId := by
      intro id hid
      rw [← Option.some.inj hid]
      exact hsessions.lt s (.inl hs)
    -- a frame takes a snap that waits only while recording is off
    cases hon : c.enabled with
    | true => exact h.drainOn hon frame _ (by rw [number, hon, Bool.true_and]) rfl hcounted
    | false =>
      exact of_owed_none (owed_snoc notes _) (by rw [number, hon, Bool.false_and])
        (snapSince_snoc notes _) hcounted
  | lost frame hrecord hs =>
    obtain ⟨s, hlive⟩ := hhoused.live hrecord
    rw [hs] at hlive
    cases hlive
  | skipped frame hidle =>
    exact of_owed_none (owed_snoc notes _) (Bool.or_eq_false_iff.mp hidle).2
      (snapSince_snoc notes _) h.counted

theorem run {start : Core} (hrun : Run start notes c) (hsession : start.session = none)
    (hrecords : start.records = false) (hnumbering : start.numbering = .new) :
    Snaps notes c := by
  induction hrun with
  | nil =>
    refine of_owed_none rfl (Bool.or_eq_false_iff.mp hrecords).2 rfl ?_
    rw [hnumbering]
    rintro id ⟨⟩
  | snoc hbefore hstep ih => exact ih.step (.run hbefore hsession hrecords) hstep

end Snaps

/-! ## Finished sessions -/

/-- A session that frames no longer go into stays so, since every session that is
opened later is a new one. -/
theorem Change.finished {past : List Note} {s : Session} (hsessions : Sessions past c)
    (hmet : ∃ n ∈ past, n.session? = some s) (hdone : c.session = some s → c.records = false)
    (hchange : Change c note c') :
    (c'.session = some s → c'.records = false) ∧ ∀ job, note.job? = some job → job.session ≠ s := by
  cases hchange with
  | opened t ht hjob hnote hsession hnext hknown hnumbering =>
    refine ⟨fun hs => ?_, fun job hsome => ?_⟩
    · rw [hsession] at hs
      cases hs
      exact absurd (.inr hmet) (hsessions.not_met_of_fresh ht)
    · rw [hjob] at hsome
      cases hsome
  | kept hnote hsession hrecords hnext hknown hnumbering =>
    refine ⟨fun hs => ?_, fun job hsome => ?_⟩
    · have hidle := hdone (hsession s hs)
      exact Bool.eq_false_iff.mpr fun hrec => Bool.eq_false_iff.mp hidle (hrecords hrec)
    · rw [Note.job?_of_no_session hnote] at hsome
      cases hsome
  | recorded frame t elapsed hrecord ht =>
    have hne : t ≠ s := by
      rintro rfl
      rw [hdone ht] at hrecord
      cases hrecord
    refine ⟨fun h => absurd (Option.some.inj (ht.symm.trans h)) hne, ?_⟩
    rintro job hjob
    rw [← Option.some.inj hjob]
    exact hne
  | skipped frame hidle => exact ⟨hdone, by rintro _ ⟨⟩⟩

/-- Nothing goes into a finished session in the rest of a run. -/
theorem Run.finished {past after : List Note} {s : Session} (hrun : Run c after c')
    (hsessions : Sessions past c) (hmet : ∃ n ∈ past, n.session? = some s)
    (hdone : c.session = some s → c.records = false) :
    Sessions (past ++ after) c' ∧ (c'.session = some s → c'.records = false) ∧
      ∀ job ∈ jobsOf after, job.session ≠ s := by
  induction hrun with
  | nil =>
    rw [List.append_nil]
    exact ⟨hsessions, hdone, by rintro _ ⟨⟩⟩
  | @snoc after m c' note hbefore hstep ih =>
    obtain ⟨hsessions', hdone', hnone⟩ := ih
    have hmet' : ∃ n ∈ past ++ after, n.session? = some s := by
      obtain ⟨n, hn, hs⟩ := hmet
      exact ⟨n, List.mem_append_left _ hn, hs⟩
    obtain ⟨hdone'', hjob⟩ := hstep.change.finished hsessions' hmet' hdone'
    refine ⟨?_, hdone'', ?_⟩
    · rw [← List.append_assoc]
      exact hsessions'.change hstep.change
    · intro job hmem
      rw [jobsOf_snoc, List.mem_append, Option.mem_toList] at hmem
      rcases hmem with hold | hnew
      · exact hnone job hold
      · exact hjob job hnew

/-! ## The law holds -/

/-- What becomes of a frame that is drained while recording is off. -/
theorem drained_off {frame : Frame} {job? : Option Job} (hhoused : Housed notes c)
    (hstep : Step c (.drained frame false job?) c') :
    (c.pending = false ∧ job? = none) ∨
      ∃ s job, c.pending = true ∧ c.session = some s ∧ job? = some job ∧ job.session = s ∧
        job.number = (c.numbering.assign frame.header s.id).1.1 ∧ c'.records = false := by
  generalize hnote : Note.drained frame false job? = note at hstep
  cases hstep with
  | recorded frame' s elapsed hrecord hs =>
    obtain ⟨rfl, hoff, rfl⟩ := Note.drained.inj hnote
    rw [records, ← hoff, Bool.false_or] at hrecord
    refine .inr ⟨s, _, hrecord, hs, rfl, rfl, rfl, ?_⟩
    rw [records, number, ← hoff]
    rfl
  | lost frame' hrecord hs =>
    obtain ⟨s, hlive⟩ := hhoused.live hrecord
    rw [hs] at hlive
    cases hlive
  | skipped frame' hidle =>
    obtain ⟨-, -, rfl⟩ := Note.drained.inj hnote
    exact .inl ⟨(Bool.or_eq_false_iff.mp hidle).2, rfl⟩
  | _ => cases hnote

/-- Before a frame that is drained while recording is off, a snap of an undisturbed run
still has its session. -/
theorem Undisturbed.owed {before after : List Note} {frame : Frame} {job? : Option Job}
    (h : Undisturbed (before ++ .drained frame false job? :: after)) :
    Core.owed before = none ∨ ∃ s, Core.owed before = some (s, false) := by
  cases howed : Core.owed before with
  | none => exact .inl rfl
  | some w =>
    obtain ⟨s, on⟩ := w
    cases on with
    | false => exact .inr ⟨s, rfl⟩
    | true =>
      obtain ⟨earlier, between, rfl, hnone, henabled⟩ := owed_origin howed
      exact absurd (henabled rfl) (h _ _ _ _ _ _ rfl hnone)

/-- The frame of a snap that still has its session becomes the only job there so far,
and nothing more is to come. -/
theorem Snaps.frame (h : Snaps notes c) (hhoused : Housed notes c) {s : Session}
    (howed : owed notes = some (s, false)) {frame : Frame} {job? : Option Job}
    (hstep : Step c (.drained frame false job?) c') :
    ∃ job, job? = some job ∧ job.session = s ∧ job.number = 1 ∧ c'.records = false ∧
      ∀ other ∈ jobsOf notes, other.session ≠ s := by
  obtain ⟨-, hpresent, -, hfirst, hempty⟩ := h.waiting s howed
  rcases drained_off hhoused hstep with ⟨hpending, -⟩ | ⟨t, job, -, ht, hjob, hs, hnumber, hoff⟩
  · rw [h.pending_eq, howed] at hpending
    cases hpending
  · rw [hpresent] at ht
    cases ht
    exact ⟨job, hjob, hs, hnumber.trans (Numbering.number_of_ne hfirst _), hoff, hempty⟩

section Law

variable {start : Core} (hsession : start.session = none) (hrecords : start.records = false)
  (hnumbering : start.numbering = .new)

include hsession hrecords

/-- Jobs of one run whose sessions have one folder have one session. -/
theorem Run.session_eq (hrun : Run start notes c) {a b : Job} (ha : a ∈ jobsOf notes)
    (hb : b ∈ jobsOf notes) (hpath : a.session.relativePath = b.session.relativePath) :
    a.session = b.session :=
  (Housed.run hrun hsession hrecords).eq_of_started (met_of_job ha) (met_of_job hb)
    (Session.started_eq_of_relativePath_eq hpath)

include hnumbering

/-- A snap of an undisturbed run gets the next frame, and its session nothing else. -/
theorem snapLaw_of_undisturbed (hrun : Run start notes c) (hcalm : Undisturbed notes) :
    SnapLaw notes := by
  constructor
  · -- the snap still has its session when the frame is drained
    rintro before frame job? after s rfl hsince
    obtain ⟨b, a, hbefore, hstep, hafter⟩ := hrun.split
    have hhoused := Housed.run hbefore hsession hrecords
    have hsnaps := Snaps.run hbefore hsession hrecords hnumbering
    rcases hcalm.owed with howed | ⟨t, howed⟩
    · rw [hsnaps.none_since howed] at hsince
      cases hsince
    · rw [(hsnaps.waiting t howed).2.2.1] at hsince
      cases hsince
      obtain ⟨job, rfl, rfl, hnumber, hoff, hearlier⟩ := hsnaps.frame hhoused howed hstep
      have hnoted : ∃ n ∈ before ++ [.drained frame false (some job)],
          n.session? = some job.session :=
        ⟨_, List.mem_append_right _ List.mem_cons_self, rfl⟩
      obtain ⟨-, -, hlater⟩ := hafter.finished (hhoused.step hstep).toSessions hnoted fun _ => hoff
      refine ⟨job, rfl, rfl, hnumber, ?_⟩
      have hjobs : jobsOf (before ++ .drained frame false (some job) :: after) =
          jobsOf before ++ job :: jobsOf after := List.filterMap_append
      intro other hother hpath
      have hmem : other ∈ jobsOf before ++ job :: jobsOf after :=
        ((List.sublist_cons_self _ _).append_left _).subset hother
      have hsame : other.session = job.session := by
        refine hrun.session_eq hsession hrecords (hjobs ▸ hmem) ?_ hpath
        rw [hjobs]
        exact List.mem_append_right _ List.mem_cons_self
      rcases List.mem_append.mp hother with hin | hin
      · exact hearlier other hin hsame
      · exact hlater other hin hsame
  · -- no snap waits, since one that does was accepted after the last drained frame
    rintro before frame job? after rfl hsince
    obtain ⟨b, a, hbefore, hstep, -⟩ := hrun.split
    have hsnaps := Snaps.run hbefore hsession hrecords hnumbering
    rcases hcalm.owed with howed | ⟨t, howed⟩
    · rcases drained_off (.run hbefore hsession hrecords) hstep with
        ⟨-, hjob⟩ | ⟨s, job, hpending, -⟩
      · exact hjob
      · rw [hsnaps.pending_eq, howed] at hpending
        cases hpending
    · rw [(hsnaps.waiting t howed).2.2.1] at hsince
      cases hsince

/-- A snap that was disturbed loses its frame to another session. -/
theorem undisturbed_of_snapLaw (hrun : Run start notes c) (hlaw : SnapLaw notes) :
    Undisturbed notes := by
  intro before s between frame job? after hnotes hnone henabled
  -- some snap waits at the end of `between`, perhaps one that was accepted before
  have howed : ∃ t, owed (before ++ .snapped s :: between) = some (t, true) := by
    obtain ⟨w, hw⟩ : ∃ w, owe (owed before) (.snapped s) = some w := by
      cases owed before with
      | none => exact ⟨_, rfl⟩
      | some w => exact ⟨w, rfl⟩
    obtain ⟨on, hfold, hon⟩ := foldl_owe hnone w
    rw [hon (.inr henabled)] at hfold
    refine ⟨w.1, ?_⟩
    rw [owed, List.foldl_append, List.foldl_cons, ← owed, hw]
    exact hfold
  obtain ⟨t, howed⟩ := howed
  rw [hnotes] at hrun
  obtain ⟨b, a, hbefore, hstep, -⟩ := hrun.split
  have hsnaps := Snaps.run hbefore hsession hrecords hnumbering
  obtain ⟨hother, hsince⟩ := hsnaps.replaced t howed
  rcases drained_off (.run hbefore hsession hrecords) hstep with
    ⟨hpending, -⟩ | ⟨u, job, -, hpresent, hjob, hu, -⟩
  · rw [hsnaps.pending_eq, howed] at hpending
    cases hpending
  · -- the frame is recorded into a session that the snap did not open
    rcases hsince with hsince | hsince
    · have hnothing := hlaw.skipped _ _ _ _ hnotes hsince
      rw [hjob] at hnothing
      cases hnothing
    · obtain ⟨job', hjob', ht, -⟩ := hlaw.snapped _ _ _ _ _ hnotes hsince
      rw [hjob] at hjob'
      cases hjob'
      rw [hpresent, ← hu, ht] at hother
      exact hother rfl

end Law

end Core

namespace Desk

variable {κ : Type} [Camera κ]

/-- A run that starts with recording off keeps the law of snaps exactly if it never
switches recording on while a snap waits for its frame. The job that is noted for a
drained frame, and no other, is what a worker gets or the drain writes. -/
theorem snapLaw_iff_undisturbed (encoder : Encoder) {path : String} {root : Root} {d : Desk κ}
    (hnew : Recording.new path root = .ok d.recording) (hnumbering : d.logger.numbering = .new)
    (events : List Event) :
    (Core.SnapLaw (d.run encoder events).1 ↔ Core.Undisturbed (d.run encoder events).1) ∧
      ∀ earlier handOff frame now outage later,
        events = earlier ++ ⟨.drain handOff frame, now, outage⟩ :: later →
          let before := (d.run encoder earlier).2.during outage
          let after := (before.act encoder now (.drain handOff frame)).2
          ∃ job?, (d.run encoder events).1[earlier.length]? =
              some (.drained frame before.recording.enabled job?) ∧
            Logger.Passed encoder now before.logger before.station.exchange job?
              after.logger after.station.exchange := by
  obtain ⟨hsession, hrecords⟩ := core_of_new hnew
  have hrun : Core.Run d.core (d.run encoder events).1 (d.run encoder events).2.core :=
    run_core encoder events .nil
  refine ⟨⟨?_, ?_⟩, ?_⟩
  · exact Core.undisturbed_of_snapLaw hsession hrecords hnumbering hrun
  · exact Core.snapLaw_of_undisturbed hsession hrecords hnumbering hrun
  · rintro earlier handOff frame now outage later rfl before after
    exact ⟨_, d.note_of_split encoder earlier ⟨.drain handOff frame, now, outage⟩ later,
      before.logger.handle_passed encoder handOff now frame before.station.exchange⟩

/-- Two snaps with their frames, and a frame after them that is not recorded. -/
theorem snapLaw_of_two_snaps :
    let events : List Event :=
      [⟨.snap, 0, none⟩, ⟨.drain false ⟨.full 1 1 3 0, [7]⟩, 0, none⟩, ⟨.snap, 0, none⟩,
        ⟨.drain false ⟨.full 1 1 5 0, [7]⟩, 0, none⟩,
        ⟨.drain false ⟨.full 1 1 6 0, [7]⟩, 0, none⟩]
    let notes := (scripted.run (.raw "raw" []) events).1
    Recording.new "frames" (.folder [] []) = .ok scripted.recording ∧
      (jobsOf notes).map (fun job => (job.session.id, job.number)) = [(1, 1), (2, 1)] ∧
      Core.SnapLaw notes := by
  have hnew : Recording.new "frames" (.folder [] []) = .ok scripted.recording := rfl
  intro events notes
  refine ⟨hnew, rfl, (snapLaw_iff_undisturbed (.raw "raw" []) hnew rfl events).1.mpr ?_⟩
  intro before s between frame job? after hnotes _ henabled
  have hmem : Note.enabled ∈ notes := by
    change notes = _ at hnotes
    rw [hnotes]
    simp [henabled]
  exact absurd hmem (by decide)

/-- The frame of a snap that waits while recording is switched on and off again goes
into the session of the recording, although no snap was accepted after the frame
before it. -/
theorem not_snapLaw_of_recording_between :
    let events : List Event :=
      [⟨.snap, 0, none⟩, ⟨.setRecording true, 0, none⟩,
        ⟨.drain false ⟨.full 1 1 1 0, [7]⟩, 0, none⟩, ⟨.setRecording false, 0, none⟩,
        ⟨.drain false ⟨.full 1 1 2 0, [7]⟩, 0, none⟩]
    ¬ Core.SnapLaw (scripted.run (.raw "raw" []) events).1 := by
  intro events hlaw
  obtain ⟨job, hjob⟩ : ∃ job, (scripted.run (.raw "raw" []) events).1 =
      (scripted.run (.raw "raw" []) events).1.take 4 ++
        .drained ⟨.full 1 1 2 0, [7]⟩ false (some job) :: [] := ⟨_, rfl⟩
  cases hlaw.skipped _ _ _ _ hjob rfl

end Desk

end FrameServer
