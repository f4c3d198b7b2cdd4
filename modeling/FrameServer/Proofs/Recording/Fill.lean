import FrameServer.Proofs.Recording.Calls
import FrameServer.Proofs.Recording.Images

/-!
# FrameServer.Proofs.Recording.Fill — what written jobs leave in a root

A job that is written leaves an image and a line in the folder of its session, if that
folder is there. So a root that jobs were written into is the same root without them,
filled up with what they leave there. Whether a folder was filled up makes no difference
to the calls to a recording, so filling up can wait until they are over.

1. **Entries**: what a written job leaves, and folders filled up with it.
2. **Roots** that are filled up.
3. **Calls** to a recording whose root is filled up.
4. **Writing** one more job.
-/

namespace FrameServer

open Logger (Job)

/-! ## Entries -/

/-- A job that was written, and what its image holds. -/
structure Entry where
  job : Job
  now : WallTime
  content : Content
deriving DecidableEq, Repr

namespace Entry

/-- The image with its name. -/
def image (encoder : Encoder) (e : Entry) : String × Content := (e.job.fileName encoder, e.content)

/-- The line in the log. -/
def line (e : Entry) : String :=
  String.ofList (Session.timestampLine e.job.number (.ofMilliseconds e.now) e.job.elapsed)

/-- The entries that belong into the folder of a session. -/
def within (s : Session) (entries : List Entry) : List Entry :=
  entries.filter (·.job.session = s)

theorem mem_within {s : Session} {entries : List Entry} {e : Entry} :
    e ∈ within s entries ↔ e ∈ entries ∧ e.job.session = s := by
  rw [within, List.mem_filter, decide_eq_true_iff]

theorem within_eq_nil {s : Session} {entries : List Entry}
    (h : ∀ e ∈ entries, e.job.session ≠ s) : within s entries = [] := by
  rw [List.eq_nil_iff_forall_not_mem]
  intro e he
  obtain ⟨hmem, hsession⟩ := mem_within.mp he
  exact h e hmem hsession

theorem within_snoc (s : Session) (entries : List Entry) (e : Entry) :
    within s (entries ++ [e]) =
      within s entries ++ if e.job.session = s then [e] else [] := by
  rw [within, List.filter_append, List.filter_singleton, within]
  by_cases hs : e.job.session = s
  · rw [if_pos hs, decide_eq_true hs, cond_true]
  · rw [if_neg hs, decide_eq_false hs, cond_false]

end Entry

namespace SessionFolder

variable (encoder : Encoder) (entries : List Entry)

/-- The folder with the images and the lines of its entries added. -/
def fill (f : SessionFolder) : SessionFolder :=
  { f with
    timestamps := f.timestamps ++ (Entry.within f.session entries).map Entry.line
    frames := f.frames ++ (Entry.within f.session entries).map (Entry.image encoder) }

variable {encoder entries}

theorem fill_of_no_entry {f : SessionFolder} (h : Entry.within f.session entries = []) :
    f.fill encoder entries = f := by
  unfold fill
  rw [h, List.map_nil, List.map_nil, List.append_nil, List.append_nil]

/-- One more entry of the folder's session is one more image and one more line. -/
theorem fill_snoc {f : SessionFolder} {e : Entry} (hs : f.session = e.job.session) :
    f.fill encoder (entries ++ [e]) =
      { f.fill encoder entries with
        timestamps := (f.fill encoder entries).timestamps ++ [e.line]
        frames := (f.fill encoder entries).frames ++ [e.image encoder] } := by
  simp only [fill, Entry.within_snoc, if_pos hs.symm, List.map_append, List.map_cons,
    List.map_nil, List.append_assoc]

theorem fill_snoc_of_ne {f : SessionFolder} {e : Entry} (hs : f.session ≠ e.job.session) :
    f.fill encoder (entries ++ [e]) = f.fill encoder entries := by
  unfold fill
  rw [Entry.within_snoc, if_neg (Ne.symm hs), List.append_nil]

end SessionFolder

/-! ## Roots -/

namespace Root

variable (encoder : Encoder) (entries : List Entry)

def fill : Root → Root := mapSessions (·.map (·.fill encoder entries))

variable {encoder entries} {root : Root}

theorem sessions_fill :
    (root.fill encoder entries).sessions = root.sessions.map (·.fill encoder entries) := by
  cases root <;> rfl

theorem fill_nil (root : Root) : root.fill encoder [] = root := by
  cases root with
  | folder others sessions =>
    show folder others (sessions.map _) = _
    rw [List.map_congr_left fun f _ => SessionFolder.fill_of_no_entry rfl, List.map_id']
  | _ => rfl

theorem known_fill : (root.fill encoder entries).known = root.known := by
  apply known_mapSessions
  intro folders
  rw [List.map_map]
  rfl

theorem check_fill (path : String) : (root.fill encoder entries).check path = root.check path := by
  cases root <;> rfl

theorem freshStart_fill (now : WallTime) :
    (root.fill encoder entries).freshStart now = root.freshStart now := by
  unfold freshStart
  rw [sessions_fill, List.map_map]
  rfl

theorem hasSession_eq (s : Session) : root.hasSession s = decide (s ∈ root.known) := by
  rw [Bool.eq_iff_iff, hasSession, List.any_eq_true, decide_eq_true_iff, known, List.mem_map]
  simp only [decide_eq_true_iff]

/-- A folder that is created for a session without entries stays empty. -/
theorem fill_create {s : Session} (hnone : Entry.within s entries = []) (camera : Settings) :
    (root.fill encoder entries).create s camera = (root.create s camera).fill encoder entries := by
  cases root with
  | folder others sessions =>
    show folder others (_ ++ [_]) = folder others ((_ ++ [_]).map _)
    rw [List.map_append, List.map_cons, List.map_nil, SessionFolder.fill_of_no_entry hnone]
  | _ => rfl

theorem fill_remove (s : Session) :
    (root.fill encoder entries).remove s = (root.remove s).fill encoder entries := by
  cases root with
  | folder others sessions =>
    show folder others ((sessions.map _).filter _) = folder others ((sessions.filter _).map _)
    rw [List.filter_map]
    rfl
  | _ => rfl

/-- An entry whose folder is not there leaves nothing. -/
theorem fill_snoc_of_notMem {e : Entry} (hs : e.job.session ∉ root.known) :
    root.fill encoder (entries ++ [e]) = root.fill encoder entries := by
  cases root with
  | folder others sessions =>
    show folder others (sessions.map _) = folder others (sessions.map _)
    congr 1
    apply List.map_congr_left
    intro f hf
    refine SessionFolder.fill_snoc_of_ne fun heq => hs ?_
    rw [← heq]
    exact List.mem_map_of_mem hf
  | _ => rfl

/-- An entry with a new name is stored beside the others, and its line is appended. -/
theorem fill_snoc {e : Entry} (hnew : ∀ f ∈ root.sessions, f.session = e.job.session →
      ∀ old, (e.job.fileName encoder, old) ∉ (f.fill encoder entries).frames) :
    root.fill encoder (entries ++ [e]) =
      ((root.fill encoder entries).update e.job.session
          (·.store (e.job.fileName encoder) e.content)).update e.job.session
        fun f => { f with timestamps := f.timestamps ++ [e.line] } := by
  cases root with
  | folder others sessions =>
    show folder others (sessions.map _) = folder others (((sessions.map _).map _).map _)
    rw [List.map_map, List.map_map]
    congr 1
    apply List.map_congr_left
    intro f hf
    simp only [Function.comp_apply]
    by_cases hs : f.session = e.job.session
    · have hfill : (f.fill encoder entries).session = e.job.session := hs
      rw [if_pos hfill, SessionFolder.store_of_new (hnew f hf hs), if_pos hfill,
        SessionFolder.fill_snoc hs]
      rfl
    · have hfill : (f.fill encoder entries).session ≠ e.job.session := hs
      rw [if_neg hfill, if_neg hfill, SessionFolder.fill_snoc_of_ne hs]
  | _ => rfl

end Root

/-! ## Calls -/

namespace Recording

variable (encoder : Encoder) (entries : List Entry)

def fill (r : Recording) : Recording := { r with root := r.root.fill encoder entries }

variable {encoder entries} {r : Recording}

theorem openSession_fill (hids : ∀ e ∈ entries, e.job.session.id < r.nextId)
    (camera : Settings) (now : WallTime) :
    (r.fill encoder entries).openSession camera now =
      ((r.openSession camera now).1, (r.openSession camera now).2.fill encoder entries) := by
  -- no entry is one of the session that is opened
  have hnone : Entry.within (r.upcoming now) entries = [] := by
    apply Entry.within_eq_nil
    rintro e he hs
    have hless := hids e he
    rw [hs] at hless
    exact Nat.lt_irrefl _ hless
  have hstart : (r.fill encoder entries).root.freshStart now = r.root.freshStart now :=
    Root.freshStart_fill now
  unfold openSession
  rw [hstart]
  simp only [fill, Root.check_fill]
  split
  · rfl
  · rw [← upcoming, Root.fill_create hnone]

/-- A call to a recording does the same whether its root was filled up before it or is
filled up after it. -/
theorem call_fill (hids : ∀ e ∈ entries, e.job.session.id < r.nextId) (c : Call) :
    (r.fill encoder entries).call c = (r.call c).fill encoder entries := by
  have hon : (r.fill encoder entries).enabled = r.enabled := rfl
  have hpending : (r.fill encoder entries).snapPending = r.snapPending := rfl
  unfold call
  cases c.op with
  | setEnabled on =>
    simp only [setEnabled, openSession_fill hids, hon]
    split
    · rfl
    · split
      · rfl
      · rcases r.openSession c.camera c.now with ⟨_ | _, r'⟩ <;> rfl
  | requestSnap =>
    simp only [requestSnap, openSession_fill hids, hon, hpending]
    split
    · rfl
    · split
      · rfl
      · rcases r.openSession c.camera c.now with ⟨_ | _, r'⟩ <;> rfl
  | takeSnap => rfl
  | cancelSnap =>
    simp only [cancelSnap, fill, Root.fill_remove]
    split
    · rfl
    · split <;> rfl

end Recording

/-! ## Writing -/

namespace Logger

variable (encoder : Encoder) (now : WallTime) (job : Job)

/-- What the encoder makes of a job. -/
def Job.encoded (path : String) : Except RecordingError Content :=
  encoder.encode (job.session.framePath path job.number encoder.extension) job.number
    job.frame.header job.frame.payload

/-- What a job leaves behind if the encoder does not refuse it. -/
def Job.entry? (path : String) : Option Entry :=
  match job.encoded encoder path with
  | .error _ => none
  | .ok content => some ⟨job, now, content⟩

/-- In a folder that was empty before, the name of a job is taken by an entry at its
place only. -/
theorem Job.notMem_fill {encoder : Encoder} {job : Job} {entries : List Entry}
    {f : SessionFolder} (hbare : f.frames = []) (hs : f.session = job.session)
    (hnew : ∀ e ∈ entries, e.job.place ≠ job.place) (old : Content) :
    (job.fileName encoder, old) ∉ (f.fill encoder entries).frames := by
  rw [SessionFolder.fill, hbare, List.nil_append]
  intro hmem
  obtain ⟨e, he, heq⟩ := List.mem_map.mp hmem
  obtain ⟨hentry, hsame⟩ := Entry.mem_within.mp he
  exact hnew e hentry
    (Job.place_eq_of_fileName_eq (hsame.trans hs) (congrArg Prod.fst heq))

/-- Writing a job adds its entry, and it succeeds if there is an entry and a folder for
it. -/
theorem Job.write_fill {encoder : Encoder} {job : Job} {entries : List Entry} {r : Recording}
    (hbare : ∀ f ∈ r.root.sessions, f.session = job.session → f.frames = [])
    (hnew : ∀ e ∈ entries, e.job.place ≠ job.place) :
    (job.write encoder now (r.fill encoder entries)).2 =
        r.fill encoder (entries ++ (job.entry? encoder now r.path).toList) ∧
      ((job.write encoder now (r.fill encoder entries)).1 = .ok () ∧
          (∃ content, job.encoded encoder r.path = .ok content) ∧ job.session ∈ r.root.known ∨
        (∃ e, (job.write encoder now (r.fill encoder entries)).1 = .error e) ∧
          ((∃ e, job.encoded encoder r.path = .error e) ∨ job.session ∉ r.root.known)) := by
  unfold Job.entry?
  cases hencoded : job.encoded encoder r.path with
  | error e =>
    have hrefused : encoder.encode (job.session.framePath (r.fill encoder entries).path job.number
        encoder.extension) job.number job.frame.header job.frame.payload = .error e := hencoded
    simp only [Job.write, hrefused, Option.toList_none, List.append_nil]
    exact ⟨trivial, .inr ⟨⟨e, rfl⟩, .inl ⟨e, rfl⟩⟩⟩
  | ok content =>
    have haccepted : encoder.encode (job.session.framePath (r.fill encoder entries).path job.number
        encoder.extension) job.number job.frame.header job.frame.payload = .ok content := hencoded
    have hknown : (r.fill encoder entries).root.known = r.root.known := Root.known_fill
    simp only [Job.write, haccepted, Recording.storeFrame?, Root.hasSession_eq, hknown,
      Option.toList_some]
    by_cases hs : job.session ∈ r.root.known
    · rw [if_pos (decide_eq_true hs)]
      refine ⟨?_, .inl ⟨rfl, ⟨content, rfl⟩, hs⟩⟩
      have hfree : ∀ f ∈ r.root.sessions, f.session = job.session →
          ∀ old, (job.fileName encoder, old) ∉ (f.fill encoder entries).frames :=
        fun f hf hsession => Job.notMem_fill (hbare f hf hsession) hsession hnew
      have hsnoc := Root.fill_snoc (e := ⟨job, now, content⟩) hfree
      simp only [Recording.fill, hsnoc, Recording.appendTimestamp, Entry.line, Job.fileName]
    · have hnone : ¬ decide (job.session ∈ r.root.known) = true := by simpa using hs
      rw [if_neg hnone]
      refine ⟨?_, .inr ⟨⟨_, rfl⟩, .inr hs⟩⟩
      have hsnoc : r.root.fill encoder (entries ++ [⟨job, now, content⟩]) =
          r.root.fill encoder entries := Root.fill_snoc_of_notMem hs
      simp only [Recording.fill, hsnoc]

end Logger

end FrameServer
