import FrameServer.Recording.Basic

/-!
# FrameServer.Proofs.Recording.Archive — the sessions of a root

Which session folders a root has, and what recording does to them: a session gets
a moment that no folder has, is opened in a folder or not at all, and writing into
folders leaves the list of sessions as it is.

1. **Free moments**
2. **Sessions** of a root.
3. **Images** in the folders of sessions.
4. **Openings**: how opening a session can end.
-/

namespace FrameServer

/-! ## Free moments -/

namespace Root

/-- Each try passes one of the taken moments that are still to come, so there is a
free one among as many tries as there are such moments. -/
theorem freeMoment_notMem (taken : List Nat) {tries now : Nat}
    (htries : (taken.filter (now ≤ ·)).length ≤ tries) : freeMoment taken tries now ∉ taken := by
  induction tries generalizing now with
  | zero =>
    intro hmem
    rw [freeMoment] at hmem
    have hnow : now ∈ taken.filter (now ≤ ·) := by simpa using hmem
    have hnil := List.length_eq_zero_iff.mp (Nat.le_zero.mp htries)
    rw [hnil] at hnow
    cases hnow
  | succ tries ih =>
    rw [freeMoment]
    by_cases htaken : taken.contains now
    · rw [if_pos htaken]
      apply ih
      -- the moments still to come after this try are those before it without `now`
      have hnow : now ∈ taken.filter (now ≤ ·) := by simpa using htaken
      have hlater : taken.filter (now + 1 ≤ ·) =
          (taken.filter (now ≤ ·)).filter (now + 1 ≤ ·) := by
        rw [List.filter_filter]
        apply List.filter_congr
        intro moment _
        rw [← Bool.decide_and, decide_eq_decide]
        omega
      have hless : (taken.filter (now + 1 ≤ ·)).length < (taken.filter (now ≤ ·)).length := by
        rw [hlater, List.length_filter_lt_length_iff_exists]
        exact ⟨now, hnow, by simp⟩
      exact Nat.le_of_lt_succ (Nat.lt_of_lt_of_le hless htries)
    · rw [if_neg htaken]
      simpa using htaken

/-! ## Sessions -/

/-- The sessions that have a folder. -/
def known (root : Root) : List Session := root.sessions.map (·.session)

/-- A new session starts at a moment at which no other did. -/
theorem freshStart_ne (now : WallTime) {root : Root} {s : Session} (hs : s ∈ root.known) :
    s.started ≠ root.freshStart now := by
  intro hstarted
  -- there are as many tries as there are sessions
  have hfree : root.freshStart now ∉ root.sessions.map (·.session.started) :=
    freeMoment_notMem _ (List.length_filter_le _ _)
  rw [known, List.mem_map] at hs
  obtain ⟨folder, hfolder, rfl⟩ := hs
  exact hfree (hstarted ▸ List.mem_map_of_mem hfolder)

/-- The root is a folder. -/
def isFolder : Root → Bool
  | folder _ _ => true
  | _ => false

theorem known_mapSessions {f : List SessionFolder → List SessionFolder}
    (hf : ∀ folders, (f folders).map (·.session) = folders.map (·.session)) (root : Root) :
    (mapSessions f root).known = root.known := by
  cases root with
  | folder others sessions => exact hf sessions
  | _ => rfl

/-- Writing into a folder does not change its session. -/
theorem known_update (s : Session) {f : SessionFolder → SessionFolder}
    (hf : ∀ e, (f e).session = e.session) (root : Root) :
    (root.update s f).known = root.known := by
  apply known_mapSessions
  intro folders
  rw [List.map_map]
  apply List.map_congr_left
  intro e _
  rw [Function.comp_apply]
  split
  · exact hf e
  · rfl

theorem mapSessions_of_not_isFolder {root : Root} (h : root.isFolder = false)
    (f : List SessionFolder → List SessionFolder) : mapSessions f root = root := by
  cases root with
  | folder others sessions => cases h
  | _ => rfl

theorem known_create {root : Root} (h : root.isFolder = true) (s : Session)
    (camera : Settings) : (root.create s camera).known = root.known ++ [s] := by
  cases root with
  | folder others sessions => exact List.map_append
  | _ => cases h

/-- Removing a session that was just created leaves what was there before. -/
theorem remove_create {root : Root} {s : Session} (hs : s ∉ root.known) (camera : Settings) :
    (root.create s camera).remove s = root := by
  cases root with
  | folder others sessions =>
    have hothers : sessions.filter (·.session ≠ s) = sessions := by
      rw [List.filter_eq_self]
      intro folder hfolder
      have hne : folder.session ≠ s := fun h => hs (h ▸ List.mem_map_of_mem hfolder)
      exact decide_eq_true hne
    show folder others ((sessions ++ [_]).filter _) = _
    rw [List.filter_append, hothers]
    simp
  | _ => rfl

theorem known_eq_nil {root : Root} (h : root.isFolder = false) : root.known = [] := by
  cases root with
  | folder others sessions => cases h
  | _ => rfl

theorem check_eq (path : String) (root : Root) :
    (root.isFolder = true ∧ root.check path = .ok ()) ∨
      root.isFolder = false ∧ ∃ e, root.check path = .error e := by
  cases root with
  | folder others sessions => exact .inl ⟨rfl, rfl⟩
  | _ => exact .inr ⟨rfl, _, rfl⟩

end Root

/-! ## Images -/

namespace SessionFolder

variable {name : String} {content : Content}

@[simp] theorem store_session (f : SessionFolder) :
    (f.store name content).session = f.session := by
  unfold store
  split <;> rfl

/-- A name that is not in use is added behind the others. -/
theorem store_of_new {f : SessionFolder} (hnew : ∀ old, (name, old) ∉ f.frames) :
    f.store name content = { f with frames := f.frames ++ [(name, content)] } := by
  have hnone : ¬ f.frames.any (·.1 = name) = true := by
    rw [List.any_eq_true]
    rintro ⟨⟨other, old⟩, hmem, heq⟩
    obtain rfl : other = name := of_decide_eq_true heq
    exact hnew old hmem
  rw [store, if_neg hnone]

/-- Storing brings in its own name only. -/
theorem mem_of_mem_store {f : SessionFolder} {e : String × Content}
    (h : e ∈ (f.store name content).frames) : e ∈ f.frames ∨ e.1 = name := by
  unfold store at h
  split at h
  · obtain ⟨old, hold, heq⟩ := List.mem_map.mp h
    by_cases hname : old.1 = name
    · rw [if_pos hname] at heq
      exact .inr (heq ▸ rfl)
    · rw [if_neg hname] at heq
      exact .inl (heq ▸ hold)
  · rcases List.mem_append.mp h with hold | hnew
    · exact .inl hold
    · exact .inr (List.mem_singleton.mp hnew ▸ rfl)

end SessionFolder

namespace Root

variable {root : Root} {s t : Session} {name : String} {content : Content}

/-- The folder of a session has a frame with this name and content. -/
def Holds (root : Root) (s : Session) (name : String) (content : Content) : Prop :=
  ∃ folder ∈ root.sessions, folder.session = s ∧ (name, content) ∈ folder.frames

theorem mem_known_of_holds (h : root.Holds s name content) : s ∈ root.known := by
  obtain ⟨folder, hfolder, rfl, -⟩ := h
  exact List.mem_map_of_mem hfolder

/-- A new folder has no frames. -/
theorem holds_create (camera : Settings) :
    (root.create t camera).Holds s name content ↔ root.Holds s name content := by
  cases root with
  | folder others sessions =>
    constructor
    · rintro ⟨folder, hfolder, hs, hframe⟩
      rcases List.mem_append.mp hfolder with hold | hnew
      · exact ⟨folder, hold, hs, hframe⟩
      · rw [List.mem_singleton.mp hnew] at hframe
        cases hframe
    · rintro ⟨folder, hfolder, hrest⟩
      exact ⟨folder, List.mem_append_left _ hfolder, hrest⟩
  | _ => exact Iff.rfl

theorem sessions_update (f : SessionFolder → SessionFolder) :
    (root.update s f).sessions = root.sessions.map fun e => if e.session = s then f e else e := by
  cases root <;> rfl

theorem holds_update {f : SessionFolder → SessionFolder}
    (hf : ∀ e, (f e).session = e.session) :
    (root.update t f).Holds s name content ↔ ∃ folder ∈ root.sessions, folder.session = s ∧
      (name, content) ∈ (if folder.session = t then f folder else folder).frames := by
  have hsame : ∀ e, (if e.session = t then f e else e).session = e.session := by
    intro e
    split
    · exact hf e
    · rfl
  rw [Holds, sessions_update]
  constructor
  · rintro ⟨folder, hfolder, hs, hframe⟩
    -- every folder comes from one of the same session
    obtain ⟨old, hold, rfl⟩ := List.mem_map.mp hfolder
    exact ⟨old, hold, (hsame old).symm.trans hs, hframe⟩
  · rintro ⟨folder, hfolder, hs, hframe⟩
    exact ⟨_, List.mem_map_of_mem hfolder, (hsame folder).trans hs, hframe⟩

/-- Writing a frame of a session changes nothing in a root that is no folder, and
otherwise takes the place of no frame unless it has its name. -/
structure Written (s : Session) (name : String) (before after : Root) : Prop where
  known_eq : after.known = before.known
  still : before.isFolder = false → after = before
  only : ∀ {t other content}, after.Holds t other content →
    before.Holds t other content ∨ t = s ∧ other = name
  kept : (∀ old, ¬ before.Holds s name old) →
    ∀ {t other content}, before.Holds t other content → after.Holds t other content

namespace Written

theorem refl (s : Session) (name : String) (root : Root) : Written s name root root :=
  ⟨rfl, fun _ => rfl, .inl, fun _ => id⟩

theorem store (s : Session) (name : String) (content : Content) (root : Root) :
    Written s name root (root.update s (·.store name content)) where
  known_eq := known_update s (fun _ => SessionFolder.store_session _) root
  still h := mapSessions_of_not_isFolder h _
  only h := by
    rw [holds_update fun _ => SessionFolder.store_session _] at h
    obtain ⟨folder, hfolder, rfl, hframe⟩ := h
    by_cases hs : folder.session = s
    · rw [if_pos hs] at hframe
      rcases SessionFolder.mem_of_mem_store hframe with hold | hname
      · exact .inl ⟨folder, hfolder, rfl, hold⟩
      · exact .inr ⟨hs, hname⟩
    · rw [if_neg hs] at hframe
      exact .inl ⟨folder, hfolder, rfl, hframe⟩
  kept hnew := by
    rintro t other old ⟨folder, hfolder, rfl, hframe⟩
    rw [holds_update fun _ => SessionFolder.store_session _]
    refine ⟨folder, hfolder, rfl, ?_⟩
    by_cases hs : folder.session = s
    · have hfree : ∀ old, (name, old) ∉ folder.frames :=
        fun old hmem => hnew old ⟨folder, hfolder, hs, hmem⟩
      rw [if_pos hs, SessionFolder.store_of_new hfree]
      exact List.mem_append_left _ hframe
    · rw [if_neg hs]
      exact hframe

/-- Changes to what else is in a folder may follow. -/
theorem beside {before after : Root} (h : Written s name before after) (t : Session)
    {f : SessionFolder → SessionFolder} (hsession : ∀ e, (f e).session = e.session)
    (hframes : ∀ e, (f e).frames = e.frames) : Written s name before (after.update t f) := by
  have hsame : ∀ e, (if e.session = t then f e else e).frames = e.frames := by
    intro e
    split
    · exact hframes e
    · rfl
  have hholds : ∀ {u other content}, (after.update t f).Holds u other content ↔
      after.Holds u other content := by
    intro u other content
    rw [holds_update hsession]
    simp only [hsame]
    exact Iff.rfl
  refine ⟨(known_update t hsession after).trans h.known_eq, ?_, ?_, ?_⟩
  · intro hbefore
    rw [h.still hbefore]
    exact mapSessions_of_not_isFolder hbefore _
  · intro u other content hafter
    exact h.only (hholds.mp hafter)
  · intro hnew u other content hbefore
    exact hholds.mpr (h.kept hnew hbefore)

end Written

end Root

/-! ## Openings -/

namespace Recording

variable (camera : Settings) (now : WallTime) (r : Recording)

/-- The session that would be opened next. -/
def upcoming : Session := ⟨r.nextId, r.root.freshStart now⟩

/-- The recording with the upcoming session opened. -/
def opened : Recording :=
  { r with
    nextId := r.nextId + 1
    root := r.root.create (r.upcoming now) camera
    session := some (r.upcoming now) }

/-- The recording after an opening that failed. -/
def skipId : Recording := { r with nextId := r.nextId + 1 }

theorem upcoming_notMem_known : r.upcoming now ∉ r.root.known := by
  intro hmem
  exact Root.freshStart_ne now hmem rfl

/-- Opening succeeds in a folder and only there. -/
theorem openSession_eq :
    (r.root.isFolder = true ∧ r.openSession camera now = (.ok (), r.opened camera now)) ∨
      r.root.isFolder = false ∧ ∃ e, r.openSession camera now = (.error e, r.skipId) := by
  unfold openSession
  rcases r.root.check_eq r.path with ⟨hfolder, hcheck⟩ | ⟨hfolder, e, hcheck⟩
  · rw [hcheck]
    exact .inl ⟨hfolder, rfl⟩
  · rw [hcheck]
    exact .inr ⟨hfolder, e, rfl⟩

/-- Switching recording on opens a session, if there is a folder for it. -/
theorem setEnabled_eq (hoff : r.enabled = false) :
    (r.root.isFolder = true ∧ r.setEnabled true camera now =
        (.ok (), { r.opened camera now with enabled := true })) ∨
      r.root.isFolder = false ∧ ∃ e, r.setEnabled true camera now = (.error e, r.skipId) := by
  rcases r.openSession_eq camera now with ⟨hfolder, hopen⟩ | ⟨hfolder, e, hopen⟩
  · refine .inl ⟨hfolder, ?_⟩
    simp [setEnabled, hoff, hopen]
  · refine .inr ⟨hfolder, e, ?_⟩
    simp [setEnabled, hoff, hopen]

/-- Asking for a snap opens a session, if there is a folder for it. -/
theorem requestSnap_eq (hoff : r.enabled = false) (hidle : r.snapPending = false) :
    (r.root.isFolder = true ∧ r.requestSnap camera now =
        (.ok (), { r.opened camera now with snapPending := true })) ∨
      r.root.isFolder = false ∧ ∃ e, r.requestSnap camera now = (.error e, r.skipId) := by
  rcases r.openSession_eq camera now with ⟨hfolder, hopen⟩ | ⟨hfolder, e, hopen⟩
  · refine .inl ⟨hfolder, ?_⟩
    simp [requestSnap, hoff, hidle, hopen]
  · refine .inr ⟨hfolder, e, ?_⟩
    simp [requestSnap, hoff, hidle, hopen]

/-- A snap is refused while recording is on and while another one is pending. -/
theorem requestSnap_refused (h : r.enabled = true ∨ r.snapPending = true) :
    ∃ e, r.requestSnap camera now = (.error e, r) := by
  unfold requestSnap
  by_cases hon : r.enabled = true
  · exact ⟨_, if_pos hon⟩
  · rw [if_neg hon, if_pos (h.resolve_left hon)]
    exact ⟨_, rfl⟩

/-- Cancelling a snap right after it was accepted leaves no session, and the root as
it was before. -/
theorem cancelSnap_opened :
    ({ r.opened camera now with snapPending := true } : Recording).cancelSnap =
      { r.skipId with snapPending := false, session := none } := by
  have hroot := Root.remove_create (r.upcoming_notMem_known now) camera
  simp only [cancelSnap, opened, skipId, Bool.not_true, Bool.false_eq_true, if_false, hroot]

end Recording

end FrameServer
