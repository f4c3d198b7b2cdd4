import Mathlib.Data.List.Forall2
import FrameServer.Proofs.Recording.Workers

/-!
# FrameServer.Proofs.Recording.Once — every job is written once

Whichever hand-offs succeed and in whichever order the workers finish, each job is
written once, and once no worker has a job any more the session folders hold the same
as if there were no workers. A job that was logged has left its image and one line, with
one exception: a snap that is withdrawn takes the folder of the present session with it,
and that may be the session of a recording.

1. **Lines** of the log apart from the wall clock.
2. **Roots that hold the same** apart from it.
3. **Places**: what a job leaves at its own one.
4. **Runs**
-/

namespace FrameServer

open Logger (Job Write jobsBy entriesOf)
open Decimal (padded fixed)

/-! ## Lines -/

/-- What stands behind the first blank. -/
def behindBlank (text : List Char) : List Char := (text.dropWhile (· ≠ ' ')).drop 1

/-- A line of the log without the wall clock and the date: what stands in front of them
and behind them. -/
def withoutClock (line : String) : List Char × List Char :=
  (line.toList.takeWhile (· ≠ ' '), behindBlank (behindBlank (behindBlank line.toList)))

theorem keep_of_notMem {front : List Char} (hfront : ' ' ∉ front) :
    ∀ c ∈ front, decide (c ≠ ' ') = true := by
  intro c hc
  exact decide_eq_true fun heq => hfront (heq ▸ hc)

theorem behindBlank_append {front : List Char} (hfront : ' ' ∉ front) (rest : List Char) :
    behindBlank (front ++ ' ' :: rest) = rest := by
  rw [behindBlank, List.dropWhile_append_of_pos (keep_of_notMem hfront)]
  rfl

theorem withoutClock_ofList {front clock date : List Char} (hfront : ' ' ∉ front)
    (hclock : ' ' ∉ clock) (hdate : ' ' ∉ date) (rest : List Char) :
    withoutClock (String.ofList (front ++ ' ' :: (clock ++ ' ' :: (date ++ ' ' :: rest)))) =
      (front, rest) := by
  rw [withoutClock, String.toList_ofList, behindBlank_append hfront, behindBlank_append hclock,
    behindBlank_append hdate, List.takeWhile_append_of_pos (keep_of_notMem hfront)]
  simp

theorem withoutClock_timestampLine (number : Nat) (now : Calendar.Instant) (elapsed : Binary64) :
    withoutClock (String.ofList (Session.timestampLine number now elapsed)) =
      (padded 5 number, fixed 6 elapsed ++ ['\n']) := by
  have htext : Session.timestampLine number now elapsed =
      padded 5 number ++ ' ' :: (now.clockText ':' ++
        ' ' :: (now.dateText ++ ' ' :: (fixed 6 elapsed ++ ['\n']))) := by
    rw [Session.timestampLine]
    simp only [List.append_assoc, List.cons_append]
  rw [htext]
  apply withoutClock_ofList
  · exact Decimal.notMem_padded (by decide) _ _
  · exact Calendar.Instant.notMem_clockText (by decide) (by decide) (by decide) _
  · exact Calendar.Instant.notMem_dateText (by decide) (by decide) (by decide) (by decide) _

namespace Entry

theorem withoutClock_line (e : Entry) :
    withoutClock e.line = (padded 5 e.job.number, fixed 6 e.job.elapsed ++ ['\n']) :=
  withoutClock_timestampLine _ _ _

/-- An entry without the moment at which it was written. -/
def stamp (e : Entry) : Job × Content := (e.job, e.content)

end Entry

/-! ## Roots that hold the same -/

/-- Two folders are of one session, and hold the same images and the same lines apart
from the wall clock, in any order. -/
structure SessionFolder.Alike (f g : SessionFolder) : Prop where
  session : f.session = g.session
  metadata : f.metadata = g.metadata
  frames : f.frames.Perm g.frames
  timestamps : (f.timestamps.map withoutClock).Perm (g.timestamps.map withoutClock)

/-- Two roots are folders with alike folders of sessions in them, or nothing else. -/
def Root.Alike : Root → Root → Prop
  | folder others sessions, folder others' sessions' =>
    others = others' ∧ List.Forall₂ SessionFolder.Alike sessions sessions'
  | root, root' => root = root'

variable {encoder : Encoder} {entries entries' : List Entry}

theorem SessionFolder.fill_alike (h : (entries.map Entry.stamp).Perm (entries'.map Entry.stamp))
    (f : SessionFolder) : (f.fill encoder entries).Alike (f.fill encoder entries') := by
  -- the entries of the session, without their moments
  have hwithin : ((Entry.within f.session entries).map Entry.stamp).Perm
      ((Entry.within f.session entries').map Entry.stamp) := by
    have hfilter := h.filter fun stamp => decide (stamp.1.session = f.session)
    rwa [List.filter_map, List.filter_map] at hfilter
  refine ⟨rfl, rfl, ?_, ?_⟩
  · have himages := hwithin.map fun stamp => (stamp.1.fileName encoder, stamp.2)
    rw [List.map_map, List.map_map] at himages
    exact himages.append_left f.frames
  · have hlines := hwithin.map fun stamp =>
      (padded 5 stamp.1.number, fixed 6 stamp.1.elapsed ++ ['\n'])
    have hline : ∀ e : Entry, (withoutClock ∘ Entry.line) e =
        ((fun stamp : Job × Content =>
          (padded 5 stamp.1.number, fixed 6 stamp.1.elapsed ++ ['\n'])) ∘ Entry.stamp) e :=
      Entry.withoutClock_line
    rw [List.map_map, List.map_map, ← funext hline] at hlines
    simp only [SessionFolder.fill, List.map_append, List.map_map]
    exact hlines.append_left _

theorem Root.fill_alike (h : (entries.map Entry.stamp).Perm (entries'.map Entry.stamp))
    (root : Root) : (root.fill encoder entries).Alike (root.fill encoder entries') := by
  cases root with
  | folder others sessions =>
    refine ⟨rfl, ?_⟩
    rw [List.forall₂_map_left_iff, List.forall₂_map_right_iff, List.forall₂_same]
    exact fun f _ => f.fill_alike h
  | _ => rfl

/-- What written jobs leave behind depends on the moments of writing only in the wall
clock. -/
theorem Logger.stamps_eq (encoder : Encoder) (path : String) (written : List Write) :
    (entriesOf encoder path written).map Entry.stamp =
      (written.map Write.job).filterMap fun job =>
        (job.encoded encoder path).toOption.map fun content => (job, content) := by
  rw [entriesOf, List.map_filterMap, List.filterMap_map]
  congr 1
  funext w
  rw [Function.comp_apply, Job.entry?]
  cases w.job.encoded encoder path <;> rfl

/-! ## Places -/

/-- Among elements that a key tells apart, one has a given key. -/
theorem filter_eq_singleton {α β : Type} [DecidableEq β] {key : α → β} {l : List α} {a : α}
    (hkeys : (l.map key).Nodup) (ha : a ∈ l) : l.filter (key · = key a) = [a] := by
  induction l with
  | nil => cases ha
  | cons b l ih =>
    rw [List.map_cons, List.nodup_cons] at hkeys
    obtain ⟨hb, hrest⟩ := hkeys
    rcases List.mem_cons.mp ha with rfl | hmem
    · have hnone : l.filter (key · = key a) = [] := by
        rw [List.filter_eq_nil_iff]
        intro c hc heq
        exact hb (of_decide_eq_true heq ▸ List.mem_map_of_mem hc)
      rw [List.filter_cons, if_pos (decide_eq_true rfl), hnone]
    · have hne : ¬ decide (key b = key a) = true := by
        intro heq
        exact hb (of_decide_eq_true heq ▸ List.mem_map_of_mem hmem)
      rw [List.filter_cons, if_neg hne]
      exact ih hrest hmem

namespace Bench

/-- The image of a job and one line with its number are in the folder of its session. -/
def Left (encoder : Encoder) (b : Bench) (job : Job) : Prop :=
  ∃ content, job.encoded encoder b.exchange.recording.path = .ok content ∧
    ∃ f ∈ b.root.sessions, f.session = job.session ∧
      f.frames.filter (·.1 = job.fileName encoder) = [(job.fileName encoder, content)] ∧
      (f.timestamps.map withoutClock).filter (·.1 = padded 5 job.number) =
        [(padded 5 job.number, fixed 6 job.elapsed ++ ['\n'])]

/-- Neither an image of a job nor a line with its number is in the folder of its
session. -/
def Missing (encoder : Encoder) (b : Bench) (job : Job) : Prop :=
  ∀ f ∈ b.root.sessions, f.session = job.session →
    f.frames.filter (·.1 = job.fileName encoder) = [] ∧
      (f.timestamps.map withoutClock).filter (·.1 = padded 5 job.number) = []

end Bench

/-- Among the entries of a job's session, those with its number have its place. -/
theorem Entry.within_filter {s : Session} {job : Job} (hs : s = job.session) {p : Entry → Bool}
    (hp : ∀ e, p e = decide (e.job.number = job.number)) :
    (within s entries).filter p = entries.filter (·.job.place = job.place) := by
  rw [within, List.filter_filter]
  apply List.filter_congr
  intro e _
  rw [hp, hs, ← Bool.decide_and, decide_eq_decide, Job.place, Job.place, Prod.mk.injEq, and_comm]

/-- In a folder that was empty before, what has the name or the number of a job is what
has its place. -/
theorem SessionFolder.fill_at_place {f : SessionFolder} (hbare : f.frames = [] ∧ f.timestamps = [])
    {job : Job} (hs : f.session = job.session) :
    (f.fill encoder entries).frames.filter (·.1 = job.fileName encoder) =
        (entries.filter (·.job.place = job.place)).map (Entry.image encoder) ∧
      ((f.fill encoder entries).timestamps.map withoutClock).filter
          (·.1 = padded 5 job.number) =
        (entries.filter (·.job.place = job.place)).map (withoutClock ∘ Entry.line) := by
  obtain ⟨hframes, htimestamps⟩ := hbare
  constructor
  · rw [fill, hframes, List.nil_append, List.filter_map, Entry.within_filter hs]
    intro e
    rw [Function.comp_apply, decide_eq_decide]
    constructor
    · exact fun hname => Session.number_eq_of_frameName_eq hname
    · exact fun hnumber => congrArg (Session.frameName · encoder.extension) hnumber
  · rw [fill, htimestamps, List.nil_append, List.map_map, List.filter_map,
      Entry.within_filter hs]
    intro e
    rw [Function.comp_apply, Function.comp_apply, Entry.withoutClock_line, decide_eq_decide]
    constructor
    · exact fun htext => Decimal.eq_of_padded_eq htext
    · exact fun hnumber => congrArg (padded 5) hnumber

/-- Written jobs with places of their own leave entries with places of their own. -/
theorem Logger.nodup_entries {path : String} {written : List Write}
    (h : (written.map (·.job.place)).Nodup) :
    ((entriesOf encoder path written).map (·.job.place)).Nodup := by
  rw [List.nodup_iff_pairwise_ne, List.pairwise_map] at h ⊢
  rw [entriesOf, List.pairwise_filterMap]
  refine h.imp ?_
  intro v w hne e he e' he'
  rw [Job.job_of_entry? he, Job.job_of_entry? he']
  exact hne

namespace Bench.Follows

variable {workers : Nat} {p : Plan} {b : Bench}

theorem path_eq (h : Follows encoder workers p b) :
    b.exchange.recording.path = p.recording.path := by
  rw [h.recording]
  rfl

theorem root_eq (h : Follows encoder workers p b) : b.root =
    p.recording.root.fill encoder (entriesOf encoder p.recording.path b.written) := by
  rw [Bench.root, h.recording]
  rfl

theorem known_eq (h : Follows encoder workers p b) : b.root.known = p.recording.root.known := by
  rw [h.root_eq, Root.known_fill]

theorem nodup_written (h : Follows encoder workers p b) (hsound : p.Sound) :
    (b.written.map (·.job.place)).Nodup := by
  have hnodup := (h.jobs_perm.map Job.place).nodup_iff.mpr hsound.nodup
  rw [List.map_append, List.nodup_append, List.map_map] at hnodup
  exact hnodup.1

/-- The folder of a job's session holds, at the place of the job, what the entries at
that place are. -/
theorem folder_at_place (h : Follows encoder workers p b) (hsound : p.Sound) {job : Job}
    (hjob : job ∈ p.jobs) {f : SessionFolder} (hf : f ∈ b.root.sessions)
    (hs : f.session = job.session) :
    f.frames.filter (·.1 = job.fileName encoder) =
        ((entriesOf encoder p.recording.path b.written).filter
          (·.job.place = job.place)).map (Entry.image encoder) ∧
      (f.timestamps.map withoutClock).filter (·.1 = padded 5 job.number) =
        ((entriesOf encoder p.recording.path b.written).filter
          (·.job.place = job.place)).map (withoutClock ∘ Entry.line) := by
  rw [h.root_eq, Root.sessions_fill] at hf
  obtain ⟨bare, hbare, rfl⟩ := List.mem_map.mp hf
  have hsame : bare.session = job.session := hs
  exact SessionFolder.fill_at_place
    (hsound.bare bare hbare (hsame ▸ Core.met_of_job hjob)) hsame

/-- A logged job has left its image and its line, unless its session was withdrawn. -/
theorem left_iff (h : Follows encoder workers p b) (hsound : p.Sound) {w : Write}
    (hw : w ∈ b.written) (hlogged : w.logged = true) :
    b.Left encoder w.job ↔ w.job.session ∉ b.withdrawn := by
  rcases h.truthful w hw with ⟨-, ⟨content, hencoded⟩, hknown⟩ | ⟨hnot, -⟩
  · constructor
    · rintro ⟨-, -, f, hf, hs, -⟩ hgone
      refine (h.gone _ hgone).2 ?_
      rw [← h.known_eq, ← hs]
      exact List.mem_map_of_mem hf
    · intro hstays
      have hmem := hknown.resolve_right hstays
      rw [← h.known_eq] at hmem
      obtain ⟨f, hf, hs⟩ := List.mem_map.mp hmem
      obtain ⟨hframes, hlines⟩ := h.folder_at_place hsound (h.mem_jobs_of_written hw) hf hs
      -- no other entry has the place of this job
      have hentry : (⟨w.job, w.now, content⟩ : Entry) ∈
          entriesOf encoder p.recording.path b.written := by
        refine List.mem_filterMap.mpr ⟨w, hw, ?_⟩
        rw [Job.entry?, hencoded]
      have hone := filter_eq_singleton (Logger.nodup_entries (h.nodup_written hsound)) hentry
      refine ⟨content, h.path_eq ▸ hencoded, f, hf, hs, ?_, ?_⟩
      · rw [hframes, hone]
        rfl
      · rw [hlines, hone, List.map_cons, List.map_nil, Function.comp_apply,
          Entry.withoutClock_line]
  · rw [hnot] at hlogged
    cases hlogged

/-- A job that was not logged has left nothing. -/
theorem missing (h : Follows encoder workers p b) (hsound : p.Sound) {w : Write}
    (hw : w ∈ b.written) (hlogged : w.logged = false) : b.Missing encoder w.job := by
  intro f hf hs
  rcases h.truthful w hw with ⟨hnot, -⟩ | ⟨-, ⟨e, herror⟩ | hunknown⟩
  · rw [hnot] at hlogged
    cases hlogged
  · have hnone : (entriesOf encoder p.recording.path b.written).filter
        (·.job.place = w.job.place) = [] := by
      rw [List.filter_eq_nil_iff]
      intro entry hentry hplace
      obtain ⟨w', hw', heq⟩ := List.mem_filterMap.mp hentry
      -- the entry is that of the only written job with this place
      have hsame := filter_eq_singleton (h.nodup_written hsound) hw
      have hmem : w' ∈ b.written.filter (·.job.place = w.job.place) := by
        rw [Job.job_of_entry? heq] at hplace
        exact List.mem_filter.mpr ⟨hw', hplace⟩
      rw [hsame, List.mem_singleton] at hmem
      rw [hmem, Job.entry?, herror] at heq
      cases heq
    obtain ⟨hframes, hlines⟩ := h.folder_at_place hsound (h.mem_jobs_of_written hw) hf hs
    rw [hframes, hlines, hnone]
    exact ⟨rfl, rfl⟩
  · refine absurd ?_ hunknown
    rw [← h.known_eq, ← hs]
    exact List.mem_map_of_mem hf

/-- Benches that follow one plan and have no jobs in other hands hold the same. -/
theorem alike {workers' : Nat} {b' : Bench} (h : Follows encoder workers p b)
    (h' : Follows encoder workers' p b')
    (hjoined : b.logger.handed = []) (hjoined' : b'.logger.handed = []) :
    b.root.Alike b'.root := by
  have hperm := h.jobs_perm.trans h'.jobs_perm.symm
  rw [hjoined, hjoined', List.append_nil, List.append_nil] at hperm
  rw [h.root_eq, h'.root_eq]
  apply Root.fill_alike
  rw [Logger.stamps_eq, Logger.stamps_eq]
  exact hperm.filterMap _

end Bench.Follows

/-! ## Runs -/

namespace Bench

open Logger (Writer)

/-- What holds of a bench on which no worker has a job any more, beside one on which the
same happened without workers. -/
structure WrittenOnce (encoder : Encoder) (b alone : Bench) : Prop where
  byWorkers : (jobsBy .worker b.written).Perm b.accepted
  byDrain : jobsBy .drain b.written = b.refused
  places : ((b.accepted ++ b.refused).map Job.place).Nodup
  jobs : (b.accepted ++ b.refused).Perm (alone.accepted ++ alone.refused)
  drained : b.logger.counters.drained =
    b.skipped + b.logger.counters.logged + b.logger.counters.errors
  inlined : b.logger.counters.inlined = b.refused.length
  logged : ∀ w ∈ b.written,
    (∃ content, w.job.encoded encoder b.exchange.recording.path = .ok content) →
      w.job.session ∈ b.root.known → w.logged = true
  failed : ∀ w ∈ b.written,
    (∃ e, w.job.encoded encoder b.exchange.recording.path = .error e) → w.logged = false
  missing : ∀ w ∈ b.written, w.logged = false → b.Missing encoder w.job
  alike : b.root.Alike alone.root

theorem Follows.writtenOnce {encoder : Encoder} {workers : Nat} {p : Plan}
    {b alone : Bench} (h : Follows encoder workers p b) (halone : Follows encoder 0 p alone)
    (hsound : p.Sound) (hjoined : b.logger.handed = []) : WrittenOnce encoder b alone := by
  have hnobody : alone.logger.handed = [] := List.length_eq_zero_iff.mp (Nat.le_zero.mp halone.room)
  have hwritten := h.jobs_perm
  rw [hjoined, List.append_nil] at hwritten
  refine ⟨?_, h.byDrain, ?_, h.assigned.trans halone.assigned.symm, ?_, h.inlined, ?_, ?_, ?_, ?_⟩
  · have hby := h.byWorkers
    rwa [hjoined, List.append_nil] at hby
  · exact (h.assigned.map Job.place).nodup_iff.mpr hsound.nodup
  · have hended := h.ended
    have hlength := hwritten.length_eq
    rw [List.length_map] at hlength
    rw [h.drained, Nat.add_assoc, hended, hlength]
  · rintro w hw ⟨content, haccepted⟩ hthere
    rcases h.truthful w hw with ⟨hlogged, -⟩ | ⟨-, ⟨e, hrefused⟩ | hgone⟩
    · exact hlogged
    · rw [← h.path_eq, haccepted] at hrefused
      cases hrefused
    · exact absurd (h.known_eq ▸ hthere) hgone
  · rintro w hw ⟨e, herror⟩
    rcases h.truthful w hw with ⟨-, ⟨content, hencoded⟩, -⟩ | ⟨hlogged, -⟩
    · rw [← h.path_eq, herror] at hencoded
      cases hencoded
    · exact hlogged
  · exact fun w hw => h.missing hsound hw
  · exact h.alike halone hjoined hnobody

/-- Once no worker has a job any more, every job was written once, counted once, and the
folders hold the same as without workers; a logged job has left its image and its line
exactly if its session was not withdrawn. -/
theorem written_once_left_iff (encoder : Encoder) {path : String} {root : Root} {x : Exchange}
    (hnew : Recording.new path root = .ok x.recording) (workers : Nat)
    (ticksPerSecond : Binary64) (events : List Event)
    (hids : (framesOf events).Pairwise fun f g => f.id < g.id)
    (hjoined : ((start workers ticksPerSecond x).run encoder events).logger.handed = []) :
    WrittenOnce encoder ((start workers ticksPerSecond x).run encoder events)
        ((start 0 ticksPerSecond x).run encoder events) ∧
      ∀ w ∈ ((start workers ticksPerSecond x).run encoder events).written, w.logged = true →
        (((start workers ticksPerSecond x).run encoder events).Left encoder w.job ↔
          w.job.session ∉ ((start workers ticksPerSecond x).run encoder events).withdrawn) := by
  have hsound := Plan.Sound.of_new hnew ticksPerSecond
  obtain ⟨hplan, hfollows⟩ :=
    (Follows.start workers ticksPerSecond rfl).run hsound events hids
  obtain ⟨-, halone⟩ := (Follows.start 0 ticksPerSecond rfl).run hsound events hids
  refine ⟨hfollows.writtenOnce halone hplan hjoined, ?_⟩
  intro w hw hlogged
  exact hfollows.left_iff hplan hw hlogged

/-- A bench that records into an empty folder. -/
def sample (workers : Nat) : Bench :=
  start workers ⟨0x3ff0000000000000⟩
    ⟨.empty 1 1 1, ⟨"frames", .folder [] [], false, false, none, 1⟩, false⟩

/-- Recording is on. The worker takes the job of the first frame, and so the drain writes
that of the second one, before the worker has finished. -/
def overtaking : List Event :=
  [.call ⟨.setEnabled true, .blank, 0⟩ none, .drain true 1 ⟨.full 1 1 3 0, [7]⟩,
    .drain true 2 ⟨.full 1 1 5 0, [8]⟩, .finish 0 3]

theorem left_of_overtaking :
    Recording.new "frames" (.folder [] []) = .ok (sample 1).exchange.recording ∧
      (framesOf overtaking).Pairwise (fun f g => f.id < g.id) ∧
      ((sample 1).run (.raw "raw" []) overtaking).logger.handed = [] ∧
      ((sample 1).run (.raw "raw" []) overtaking).written.map
          (fun w => (w.writer, w.job.number, w.logged)) =
        [(.drain, 3, true), (.worker, 1, true)] ∧
      WrittenOnce (.raw "raw" []) ((sample 1).run (.raw "raw" []) overtaking)
        ((sample 0).run (.raw "raw" []) overtaking) ∧
      ∀ w ∈ ((sample 1).run (.raw "raw" []) overtaking).written,
        ((sample 1).run (.raw "raw" []) overtaking).Left (.raw "raw" []) w.job := by
  have hnew : Recording.new "frames" (.folder [] []) = .ok (sample 1).exchange.recording := rfl
  have hids : (framesOf overtaking).Pairwise (fun f g => f.id < g.id) := by decide
  have hjoined : ((sample 1).run (.raw "raw" []) overtaking).logger.handed = [] := by
    decide +kernel
  have hlogged : ∀ w ∈ ((sample 1).run (.raw "raw" []) overtaking).written,
      w.logged = true ∧
        w.job.session ∉ ((sample 1).run (.raw "raw" []) overtaking).withdrawn := by
    decide +kernel
  obtain ⟨honce, hleft⟩ :=
    written_once_left_iff (.raw "raw" []) hnew 1 ⟨0x3ff0000000000000⟩ overtaking hids hjoined
  refine ⟨hnew, hids, hjoined, by decide +kernel, honce, ?_⟩
  intro w hw
  obtain ⟨hmark, hstays⟩ := hlogged w hw
  exact (hleft w hw hmark).mpr hstays

/-- A snap is accepted, recording is switched on, a frame is drained and logged, and the
snap is withdrawn: the image of the frame is gone with the folder of the recording. -/
theorem not_left_of_withdrawn :
    let b := (sample 0).run (.raw "raw" [])
      [.call ⟨.requestSnap, .blank, 0⟩ none, .call ⟨.setEnabled true, .blank, 0⟩ none,
        .drain false 0 ⟨.full 1 1 1 1000, [1]⟩, .call ⟨.cancelSnap, .blank, 0⟩ none]
    b.logger.handed = [] ∧ ¬ ∀ w ∈ b.written, w.logged = true → b.Left (.raw "raw" []) w.job := by
  intro b
  refine ⟨by decide +kernel, ?_⟩
  intro hleft
  have hsessions : b.root.known = [⟨1, 0⟩] := by decide +kernel
  have hlogged : ∃ w ∈ b.written, w.logged = true ∧ w.job.session = ⟨2, 1⟩ := by decide +kernel
  obtain ⟨w, hw, hmark, hsession⟩ := hlogged
  obtain ⟨-, -, f, hf, hs, -⟩ := hleft w hw hmark
  have hmem : w.job.session ∈ b.root.known := by
    rw [← hs]
    exact List.mem_map_of_mem hf
  rw [hsessions, hsession] at hmem
  revert hmem
  decide

end Bench

end FrameServer
