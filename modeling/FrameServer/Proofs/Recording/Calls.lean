import FrameServer.Proofs.Recording.Archive

/-!
# FrameServer.Proofs.Recording.Calls — a recording and its session

Calls to a recording come in any order, each of them carried out before the next
one, on a root that nobody else touches. While recording is on there should be a
session with its folder, and cancelling a snap should discard the session that the
snap opened and no other one. A cancelled snap discards the present session, though,
which is another one if recording was switched on since the snap was accepted. So
both hold exactly as long as no such snap is cancelled.

1. **Calls** and what each of them can do.
2. **Watched recordings**: a recording and what is remembered of the calls to it.
3. **What every row of calls keeps**
4. **The law** holds exactly in calm rows of calls.
-/

namespace FrameServer

theorem Root.mem_sessions_remove {root : Root} {s : Session} {folder : SessionFolder} :
    folder ∈ (root.remove s).sessions ↔ folder ∈ root.sessions ∧ folder.session ≠ s := by
  cases root with
  | folder others sessions =>
    show folder ∈ sessions.filter _ ↔ _
    rw [List.mem_filter, decide_eq_true_iff]
    exact Iff.rfl
  | _ =>
    constructor
    · rintro ⟨⟩
    · rintro ⟨⟨⟩, -⟩

theorem Root.isFolder_mapSessions (f : List SessionFolder → List SessionFolder) (root : Root) :
    (root.mapSessions f).isFolder = root.isFolder := by
  cases root <;> rfl

namespace Recording

/-! ## Calls -/

/-- What can be asked of a recording. -/
inductive Op where
  | setEnabled (on : Bool)
  | requestSnap
  /-- A drained frame takes a pending snap. -/
  | takeSnap
  | cancelSnap
deriving DecidableEq, Repr

/-- An operation, with the settings of the camera and the moment at which it is
carried out. -/
structure Call where
  op : Op
  camera : Settings
  now : WallTime
deriving DecidableEq, Repr

def call (c : Call) (r : Recording) : Recording :=
  match c.op with
  | .setEnabled on => (r.setEnabled on c.camera c.now).2
  | .requestSnap => (r.requestSnap c.camera c.now).2
  | .takeSnap => r.takeSnap.2
  | .cancelSnap => r.cancelSnap

/-- What a call can come to. -/
inductive Effect (c : Call) (r : Recording) : Recording → Prop where
  | began (hop : c.op = .setEnabled true) (hoff : r.enabled = false)
      (hfolder : r.root.isFolder = true) :
      Effect c r { r.opened c.camera c.now with enabled := true }
  | ended (hop : c.op = .setEnabled false) : Effect c r { r with enabled := false }
  | snapped (hop : c.op = .requestSnap) (hoff : r.enabled = false)
      (hidle : r.snapPending = false) (hfolder : r.root.isFolder = true) :
      Effect c r { r.opened c.camera c.now with snapPending := true }
  /-- There is no folder to open a session in. -/
  | failed (hnone : r.root.isFolder = false) : Effect c r r.skipId
  | taken (hop : c.op = .takeSnap) : Effect c r { r with snapPending := false }
  | withdrawn (hop : c.op = .cancelSnap) (hpending : r.snapPending = true) (s : Session)
      (hs : r.session = some s) :
      Effect c r { r with snapPending := false, session := none, root := r.root.remove s }
  | withdrawnAlone (hop : c.op = .cancelSnap) (hpending : r.snapPending = true)
      (hs : r.session = none) : Effect c r { r with snapPending := false }
  | unchanged : Effect c r r

theorem call_effect (c : Call) (r : Recording) : Effect c r (r.call c) := by
  unfold call
  cases hop : c.op with
  | setEnabled on =>
    cases on with
    | false => exact .ended hop
    | true =>
      show Effect c r (r.setEnabled true c.camera c.now).2
      by_cases hon : r.enabled = true
      · -- recording goes on as it is
        have hsame : r.setEnabled true c.camera c.now = (.ok (), r) := by
          simp [setEnabled, hon]
        rw [hsame]
        exact .unchanged
      · rw [Bool.not_eq_true] at hon
        rcases r.setEnabled_eq c.camera c.now hon with ⟨hfolder, hset⟩ | ⟨hnone, e, hset⟩
        · rw [hset]
          exact .began hop hon hfolder
        · rw [hset]
          exact .failed hnone
  | requestSnap =>
    show Effect c r (r.requestSnap c.camera c.now).2
    by_cases hbusy : r.enabled = true ∨ r.snapPending = true
    · obtain ⟨e, hsnap⟩ := r.requestSnap_refused c.camera c.now hbusy
      rw [hsnap]
      exact .unchanged
    · rw [not_or, Bool.not_eq_true, Bool.not_eq_true] at hbusy
      obtain ⟨hoff, hidle⟩ := hbusy
      rcases r.requestSnap_eq c.camera c.now hoff hidle with
        ⟨hfolder, hsnap⟩ | ⟨hnone, e, hsnap⟩
      · rw [hsnap]
        exact .snapped hop hoff hidle hfolder
      · rw [hsnap]
        exact .failed hnone
  | takeSnap => exact .taken hop
  | cancelSnap =>
    show Effect c r r.cancelSnap
    by_cases hpending : r.snapPending = true
    · cases hs : r.session with
      | none =>
        have hcancel : r.cancelSnap = { r with snapPending := false } := by
          simp [cancelSnap, hpending, hs]
        rw [hcancel]
        exact .withdrawnAlone hop hpending hs
      | some s =>
        have hcancel : r.cancelSnap =
            { r with snapPending := false, session := none, root := r.root.remove s } := by
          simp [cancelSnap, hpending, hs]
        rw [hcancel]
        exact .withdrawn hop hpending s hs
    · have hsame : r.cancelSnap = r := by simp [cancelSnap, hpending]
      rw [hsame]
      exact .unchanged

theorem enabled_of_new {path : String} {root : Root} {r : Recording}
    (hnew : Recording.new path root = .ok r) : r.enabled = false := by
  unfold Recording.new at hnew
  split at hnew
  · cases hnew
  · cases hnew
    rfl

/-! ## Watched recordings -/

/-- A recording and what is remembered of the calls to it. -/
structure Watched where
  recording : Recording
  /-- The sessions that were opened by switching recording on. -/
  begun : List Session
  /-- The session that was opened for the newest snap that was accepted. -/
  snapped : Option Session
  /-- Recording was switched on since that snap was accepted. -/
  disturbed : Bool
deriving DecidableEq

namespace Watched

/-- Nothing was asked of the recording yet. -/
def new (r : Recording) : Watched := ⟨r, [], none, false⟩

/-- A call; that it began a recording or accepted a snap is seen from the switches. -/
def step (w : Watched) (c : Call) : Watched :=
  let r := w.recording.call c
  if !w.recording.enabled && r.enabled then
    ⟨r, w.begun ++ r.session.toList, w.snapped, true⟩
  else if !w.recording.snapPending && r.snapPending then ⟨r, w.begun, r.session, false⟩
  else { w with recording := r }

def run (r : Recording) (calls : List Call) : Watched := calls.foldl step (new r)

theorem step_recording (w : Watched) (c : Call) :
    (w.step c).recording = w.recording.call c := by
  unfold step
  dsimp only
  split
  · rfl
  · split <;> rfl

theorem run_take_succ (r : Recording) {calls : List Call} {i : Nat} (hi : i < calls.length) :
    run r (calls.take (i + 1)) = (run r (calls.take i)).step calls[i] := by
  rw [List.take_succ_eq_append_getElem hi, run, List.foldl_append]
  rfl

/-! ## What every row of calls keeps -/

/-- The folder of a session as it was created: with a description and an empty log. -/
def Created (r : Recording) (s : Session) : Prop :=
  ∃ camera, (⟨s, s.metadata camera, [], []⟩ : SessionFolder) ∈ r.root.sessions

/-- The present session has its folder. A snap that is pending has its session, unless
recording was switched on since it was accepted; then a session that was opened for
that is the present one. -/
structure Kept (w : Watched) : Prop where
  isFolder : w.recording.root.isFolder = true
  created : ∀ s, w.recording.session = some s → Created w.recording s
  begun_lt : ∀ s ∈ w.begun, s.id < w.recording.nextId
  snapped_lt : ∀ s, w.snapped = some s → s.id < w.recording.nextId ∧ s ∉ w.begun
  calm : w.recording.snapPending = true → w.disturbed = false →
    w.recording.enabled = false ∧ ∃ s, w.recording.session = some s ∧ w.snapped = some s
  hasty : w.recording.snapPending = true → w.disturbed = true →
    ∃ s ∈ w.begun, w.recording.session = some s

theorem created_opened {r : Recording} (hfolder : r.root.isFolder = true) (camera : Settings)
    (now : WallTime) : Created (r.opened camera now) (r.upcoming now) := by
  refine ⟨camera, ?_⟩
  unfold opened
  cases hroot : r.root with
  | folder others sessions => exact List.mem_append_right _ List.mem_cons_self
  | _ =>
    rw [hroot] at hfolder
    cases hfolder

namespace Kept

variable {w : Watched} {c : Call}

theorem new {path : String} {root : Root} {r : Recording}
    (hnew : Recording.new path root = .ok r) : Kept (.new r) := by
  unfold Recording.new at hnew
  rcases root.check_eq path with ⟨hfolder, hcheck⟩ | ⟨-, e, hcheck⟩
  · rw [hcheck] at hnew
    cases hnew
    refine ⟨hfolder, ?_, ?_, ?_, ?_, ?_⟩
    · rintro s ⟨⟩
    · rintro s ⟨⟩
    · rintro s ⟨⟩
    · rintro ⟨⟩
    · rintro ⟨⟩
  · rw [hcheck] at hnew
    cases hnew

/-- The number of a session that is opened now is that of no session before. -/
theorem ne_upcoming (now : WallTime) {s : Session} (hs : s.id < w.recording.nextId) :
    s ≠ w.recording.upcoming now := by
  rintro rfl
  exact Nat.lt_irrefl _ hs

/-- Every call keeps the sessions in order. -/
theorem step (h : Kept w) (c : Call) : Kept (w.step c) := by
  unfold Watched.step
  generalize hr : w.recording.call c = r
  have heffect := call_effect c w.recording
  rw [hr] at heffect
  cases heffect with
  | began hop hoff hfolder =>
    rw [hoff]
    have hcreated := created_opened hfolder c.camera c.now
    refine ⟨(Root.isFolder_mapSessions _ _).trans h.isFolder, ?_, ?_, ?_, ?_, ?_⟩
    · rintro s hs
      cases hs
      exact hcreated
    · intro s hs
      rcases List.mem_append.mp hs with hold | hnew
      · exact Nat.lt_succ_of_lt (h.begun_lt s hold)
      · rw [List.mem_singleton.mp hnew]
        exact Nat.lt_succ_self _
    · intro s hs
      obtain ⟨hlt, hnot⟩ := h.snapped_lt s hs
      refine ⟨Nat.lt_succ_of_lt hlt, ?_⟩
      intro hmem
      rcases List.mem_append.mp hmem with hold | hnew
      · exact hnot hold
      · exact ne_upcoming c.now hlt (List.mem_singleton.mp hnew)
    · rintro - ⟨⟩
    · intro _ _
      exact ⟨_, List.mem_append_right _ List.mem_cons_self, rfl⟩
  | ended hop =>
    simp only [Bool.and_false, Bool.false_eq_true, if_false, Bool.not_and_self]
    refine ⟨h.isFolder, h.created, h.begun_lt, h.snapped_lt, ?_, h.hasty⟩
    intro hpending hcalm
    exact ⟨rfl, (h.calm hpending hcalm).2⟩
  | failed hnone =>
    rw [h.isFolder] at hnone
    cases hnone
  | snapped hop hoff hidle hfolder =>
    have hstill : (w.recording.opened c.camera c.now).enabled = false := hoff
    simp only [hstill, hidle, Bool.and_false, Bool.false_eq_true, if_false, Bool.not_false,
      Bool.and_self, if_true]
    have hcreated := created_opened hfolder c.camera c.now
    refine ⟨(Root.isFolder_mapSessions _ _).trans h.isFolder, ?_, ?_, ?_, ?_, ?_⟩
    · rintro s hs
      cases hs
      exact hcreated
    · intro s hs
      exact Nat.lt_succ_of_lt (h.begun_lt s hs)
    · rintro s hs
      cases hs
      refine ⟨Nat.lt_succ_self _, ?_⟩
      intro hmem
      exact ne_upcoming c.now (h.begun_lt _ hmem) rfl
    · intro _ _
      exact ⟨rfl, _, rfl, rfl⟩
    · rintro - ⟨⟩
  | taken hop =>
    simp only [Bool.not_and_self, Bool.and_false, Bool.false_eq_true, if_false]
    exact ⟨h.isFolder, h.created, h.begun_lt, h.snapped_lt, by rintro ⟨⟩, by rintro ⟨⟩⟩
  | withdrawn hop hpending s hs =>
    simp only [Bool.not_and_self, Bool.and_false, Bool.false_eq_true, if_false]
    exact ⟨(Root.isFolder_mapSessions _ _).trans h.isFolder, by rintro s ⟨⟩, h.begun_lt,
      h.snapped_lt, by rintro ⟨⟩, by rintro ⟨⟩⟩
  | withdrawnAlone hop hpending hs =>
    simp only [Bool.not_and_self, Bool.and_false, Bool.false_eq_true, if_false]
    exact ⟨h.isFolder, h.created, h.begun_lt, h.snapped_lt, by rintro ⟨⟩, by rintro ⟨⟩⟩
  | unchanged =>
    simp only [Bool.not_and_self, Bool.false_eq_true, if_false]
    exact h

theorem run {r : Recording} (h : Kept (.new r)) (calls : List Call) :
    Kept (Watched.run r calls) := by
  unfold Watched.run
  generalize Watched.new r = w at h
  induction calls generalizing w with
  | nil => exact h
  | cons c later ih => exact ih (w.step c) (h.step c)

end Kept

/-! ## The law -/

/-- While recording is on there is a session, and its folder is there. -/
def Live (w : Watched) : Prop :=
  w.recording.enabled = true → ∃ s, w.recording.session = some s ∧ Created w.recording s

/-- Cancelling a snap discards no folder but that of the session which was opened for
the snap, and none that was opened by switching recording on. -/
def DiscardsOwn (w : Watched) (c : Call) : Prop :=
  c.op = .cancelSnap → ∀ folder ∈ w.recording.root.sessions,
    folder ∉ (w.step c).recording.root.sessions →
      w.snapped = some folder.session ∧ folder.session ∉ w.begun

/-- At every moment of a row of calls. -/
structure Lawful (r : Recording) (calls : List Call) : Prop where
  live : ∀ i, Live (run r (calls.take i))
  discardsOwn : ∀ i (hi : i < calls.length), DiscardsOwn (run r (calls.take i)) calls[i]

/-- No snap is cancelled after recording was switched on since it was accepted. -/
def Calm (r : Recording) (calls : List Call) : Prop :=
  ∀ i (hi : i < calls.length), calls[i].op = .cancelSnap →
    (run r (calls.take i)).recording.snapPending = true →
      (run r (calls.take i)).disturbed = false

instance (r : Recording) (calls : List Call) : Decidable (Calm r calls) :=
  inferInstanceAs (Decidable (∀ i (_ : i < calls.length), _ → _ → _))

variable {w : Watched} {c : Call}

/-- A call keeps a session for the frames that are to be recorded, unless it cancels a
snap after recording was switched on. -/
theorem Kept.live_step (h : Kept w) (hlive : Live w)
    (hcalm : c.op = .cancelSnap → w.recording.snapPending = true → w.disturbed = false) :
    Live (w.step c) := by
  intro hon
  have hstep := h.step c
  suffices hsome : ∃ s, (w.step c).recording.session = some s by
    obtain ⟨s, hs⟩ := hsome
    exact ⟨s, hs, hstep.created s hs⟩
  rw [step_recording] at hon ⊢
  generalize hr : w.recording.call c = r at hon
  have heffect := call_effect c w.recording
  rw [hr] at heffect
  cases heffect with
  | began hop hoff hfolder => exact ⟨_, rfl⟩
  | ended hop => cases hon
  | snapped hop hoff hidle hfolder => exact ⟨_, rfl⟩
  | failed hnone =>
    rw [h.isFolder] at hnone
    cases hnone
  | taken hop =>
    obtain ⟨s, hs, -⟩ := hlive hon
    exact ⟨s, hs⟩
  | withdrawn hop hpending s hs =>
    -- a snap that was left in peace is pending only while recording is off
    have hoff := (h.calm hpending (hcalm hop hpending)).1
    rw [hoff] at hon
    cases hon
  | withdrawnAlone hop hpending hs =>
    obtain ⟨s, hs, -⟩ := hlive hon
    exact ⟨s, hs⟩
  | unchanged =>
    obtain ⟨s, hs, -⟩ := hlive hon
    exact ⟨s, hs⟩

/-- At every moment of a calm row of calls there is a session while recording is on. -/
theorem Kept.live_of_calm {r : Recording} {calls : List Call} (h : Kept (.new r))
    (hoff : r.enabled = false) (hcalm : Calm r calls) (i : Nat) :
    Live (Watched.run r (calls.take i)) := by
  induction i with
  | zero =>
    intro hon
    rw [List.take_zero] at hon
    change r.enabled = true at hon
    rw [hoff] at hon
    cases hon
  | succ i ih =>
    by_cases hi : i < calls.length
    · rw [run_take_succ r hi]
      exact (h.run _).live_step ih (hcalm i hi)
    · -- the row is over
      rw [Nat.not_lt] at hi
      rw [List.take_of_length_le hi] at ih
      rw [List.take_of_length_le (Nat.le_succ_of_le hi)]
      exact ih

/-- A snap that was left in peace is cancelled with its own session. -/
theorem Kept.discardsOwn (h : Kept w)
    (hcalm : c.op = .cancelSnap → w.recording.snapPending = true → w.disturbed = false) :
    DiscardsOwn w c := by
  intro hop folder hbefore hafter
  rw [step_recording] at hafter
  generalize hr : w.recording.call c = r at hafter
  have heffect := call_effect c w.recording
  rw [hr] at heffect
  cases heffect with
  | began hop' hoff hfolder =>
    rw [hop] at hop'
    cases hop'
  | ended hop' => exact absurd hbefore hafter
  | snapped hop' hoff hidle hfolder =>
    rw [hop] at hop'
    cases hop'
  | failed hnone =>
    rw [h.isFolder] at hnone
    cases hnone
  | taken hop' => exact absurd hbefore hafter
  | withdrawn hop' hpending s hs =>
    obtain ⟨-, t, ht, hsnapped⟩ := h.calm hpending (hcalm hop hpending)
    rw [hs] at ht
    cases ht
    -- only the folders of the session are missing afterwards
    have hsame : folder.session = s := Classical.not_not.mp fun hne =>
      hafter (Root.mem_sessions_remove.mpr ⟨hbefore, hne⟩)
    rw [hsame]
    exact ⟨hsnapped, (h.snapped_lt s hsnapped).2⟩
  | withdrawnAlone hop' hpending hs => exact absurd hbefore hafter
  | unchanged => exact absurd hbefore hafter

/-- A snap that is cancelled after recording was switched on takes a session of a
recording with it. -/
theorem Kept.not_discardsOwn (h : Kept w) (hop : c.op = .cancelSnap)
    (hpending : w.recording.snapPending = true) (hdisturbed : w.disturbed = true) :
    ¬ DiscardsOwn w c := by
  intro hown
  obtain ⟨s, hbegun, hs⟩ := h.hasty hpending hdisturbed
  obtain ⟨camera, hfolder⟩ := h.created s hs
  refine (hown hop _ hfolder ?_).2 hbegun
  have hcancel : w.recording.call c =
      { w.recording with
        snapPending := false, session := none, root := w.recording.root.remove s } := by
    simp [call, hop, cancelSnap, hpending, hs]
  rw [step_recording, hcancel]
  intro hmem
  exact (Root.mem_sessions_remove.mp hmem).2 rfl

/-- While recording is on there is a session with its folder, and cancelling a snap
discards the session of that snap only, exactly as long as no snap is cancelled after
recording was switched on since it was accepted. -/
theorem lawful_iff_calm {path : String} {root : Root} {r : Recording}
    (hnew : Recording.new path root = .ok r) (calls : List Call) :
    Lawful r calls ↔ Calm r calls := by
  have hkept := Kept.new hnew
  constructor
  · intro hlaw i hi hop hpending
    cases hdisturbed : (run r (calls.take i)).disturbed with
    | false => rfl
    | true =>
      exact absurd (hlaw.discardsOwn i hi) ((hkept.run _).not_discardsOwn hop hpending hdisturbed)
  · intro hcalm
    refine ⟨hkept.live_of_calm (enabled_of_new hnew) hcalm, ?_⟩
    intro i hi
    exact (hkept.run _).discardsOwn (hcalm i hi)

/-- A snap that is cancelled, a recording, and a snap that gets its frame. -/
theorem lawful_of_cancelled_snap :
    let r : Recording := ⟨"frames", .folder [] [], false, false, none, 1⟩
    let calls : List Call := [.requestSnap, .cancelSnap, .setEnabled true, .setEnabled false,
      .requestSnap, .takeSnap, .cancelSnap, .setEnabled true].map (⟨·, .blank, 0⟩)
    Recording.new "frames" (.folder [] []) = .ok r ∧ Calm r calls ∧ Lawful r calls ∧
      (run r calls).recording.session.isSome = true := by
  intro r calls
  have hnew : Recording.new "frames" (.folder [] []) = .ok r := rfl
  have hcalm : Calm r calls := by decide +kernel
  have hlaw := (lawful_iff_calm hnew calls).mpr hcalm
  refine ⟨hnew, hcalm, hlaw, ?_⟩
  decide +kernel

/-- A snap is accepted, recording is switched on, and the snap is cancelled: recording
is on without a session, and the folder of the recording is gone. -/
theorem not_lawful_of_recording_between :
    let r : Recording := ⟨"frames", .folder [] [], false, false, none, 1⟩
    let calls : List Call :=
      [.requestSnap, .setEnabled true, .cancelSnap].map (⟨·, .blank, 0⟩)
    ¬ Lawful r calls := by
  intro r calls hlaw
  obtain ⟨s, hs, -⟩ := hlaw.live 3 rfl
  cases hs

end Watched

end Recording

end FrameServer
