import FrameServer.Proofs.Recording.Archive
import FrameServer.Server.Running

/-!
# FrameServer.Proofs.Server.Refused — refused commands leave no trace

Switching recording on and taking a snap open a session before they are done, and a snap
may then still be refused by the camera. Whatever the state of the server, and whatever
became of the recording root meanwhile, a refusal leaves the recording switch, the
pending snap, the camera and every session folder as they were.

1. **What is compared**: `Untouched`, and `Withdrawn` for a snap that the camera refused.
2. **Endings**: how each of the two commands can end.
3. **Happenings**: what happens to a server, and others that change the recording root.
4. `refused_leaves_no_trace`: the statement for every run.
-/

namespace FrameServer

/-! ## What is compared -/

namespace Station

def recording {κ : Type} (s : Station κ) : Recording := s.exchange.recording

def root {κ : Type} (s : Station κ) : Root := s.recording.root

/-- What a refused command has left as it was. The root stands for all session folders
with what is in them. -/
structure Untouched (before after : Station PatternCamera) : Prop where
  enabled : after.recording.enabled = before.recording.enabled
  snapPending : after.recording.snapPending = before.recording.snapPending
  settings : after.settings = before.settings
  imaging : after.isImaging = before.isImaging
  root : after.root = before.root

/-- A snap was accepted and withdrawn again: the folder that it added was none of those
before, and it alone was removed. -/
def Withdrawn (now : WallTime) (before after : Station PatternCamera) : Prop :=
  ∃ during s, before.recording.requestSnap before.settings now = (.ok (), during) ∧
    s ∉ before.root.known ∧ during.root.known = before.root.known ++ [s] ∧
    after.root = during.root.remove s ∧ after.recording.snapPending = false

namespace Untouched

variable {before : Station PatternCamera} {recording : Recording}

/-- Only the recording was replaced, by one that has the same switches and the same
root. -/
theorem withRecording (henabled : recording.enabled = before.recording.enabled)
    (hpending : recording.snapPending = before.recording.snapPending)
    (hroot : recording.root = before.root) : Untouched before (before.withRecording recording) where
  enabled := henabled
  snapPending := hpending
  settings := rfl
  imaging := rfl
  root := hroot

theorem skipId : Untouched before (before.withRecording before.recording.skipId) :=
  withRecording rfl rfl rfl

end Untouched

end Station

/-! ## Endings -/

/-- A camera that refuses a trigger stays as it is. -/
theorem PatternCamera.trigger_refused {c : PatternCamera} {e : CaptureError}
    (h : (Camera.trigger c).1 = .error e) : (Camera.trigger c).2 = c := by
  have hunfold : (Camera.trigger c) = c.trigger := rfl
  rw [hunfold] at h ⊢
  unfold PatternCamera.trigger at h ⊢
  split at h
  · cases h
  · split at h
    · cases h
    · simp_all

namespace Station

variable {now : WallTime} {s : Station PatternCamera} {e : ControlError}

/-- Switching recording on is refused if it is off and the root is no folder, and uses
up a number. -/
theorem setRecording_refused (h : (s.setRecording true now).1 = .error e) :
    ∃ cause, e = .recording cause ∧
      (s.setRecording true now).2 = s.withRecording s.recording.skipId := by
  unfold setRecording at h ⊢
  by_cases hon : s.exchange.recording.enabled = true
  · have hset : s.exchange.recording.setEnabled true s.settings now =
        (.ok (), s.exchange.recording) := by simp [Recording.setEnabled, hon]
    rw [hset] at h
    cases h
  · rcases s.exchange.recording.setEnabled_eq s.settings now (by simpa using hon) with
      ⟨-, hset⟩ | ⟨-, cause, hset⟩
    · rw [hset] at h
      cases h
    · rw [hset] at h ⊢
      exact ⟨cause, (Except.error.inj h).symm, rfl⟩

/-- How a refused snap can end. -/
inductive SnapRefused (now : WallTime) (s : Station PatternCamera) :
    ControlError → Station PatternCamera → Prop where
  /-- Recording is on, or another snap is pending. -/
  | busy (cause : RecordingError) : SnapRefused now s (.recording cause) s
  /-- There is no folder for a session. -/
  | noFolder (cause : RecordingError) :
    SnapRefused now s (.recording cause) (s.withRecording s.recording.skipId)
  /-- The camera refuses the trigger after the session was opened. -/
  | untriggered (cause : CaptureError) (hoff : s.recording.enabled = false)
    (hidle : s.recording.snapPending = false) (hfolder : s.root.isFolder = true) :
    SnapRefused now s (.capture cause) (s.withRecording
      { s.recording.skipId with snapPending := false, session := none })

theorem snap_refused (h : (s.snap now).1 = .error e) : SnapRefused now s e (s.snap now).2 := by
  unfold snap at h ⊢
  by_cases hbusy : s.recording.enabled = true ∨ s.recording.snapPending = true
  · rcases Recording.requestSnap_refused s.settings now s.exchange.recording hbusy with
      ⟨cause, hrequest⟩
    rw [hrequest] at h ⊢
    rw [← Except.error.inj h]
    exact .busy cause
  · have hoff : s.recording.enabled = false := by simp_all
    have hidle : s.recording.snapPending = false := by simp_all
    rcases s.exchange.recording.requestSnap_eq s.settings now hoff hidle with
      ⟨hfolder, hrequest⟩ | ⟨-, cause, hrequest⟩
    · rw [hrequest] at h ⊢
      simp only at h ⊢
      split at h
      · cases h
      · next cause htrigger =>
        have hcamera : (Camera.trigger s.camera).2 = s.camera :=
          PatternCamera.trigger_refused htrigger
        -- the session that the snap opened is the one that is discarded
        have hcancel := s.exchange.recording.cancelSnap_opened s.settings now
        rw [← Except.error.inj h]
        simp only [withRecording, hcancel, hcamera]
        exact .untriggered cause hoff hidle hfolder
    · rw [hrequest] at h ⊢
      rw [← Except.error.inj h]
      exact .noFolder cause

/-- A refused snap leaves no trace. -/
theorem SnapRefused.untouched {after : Station PatternCamera} (h : SnapRefused now s e after) :
    Untouched s after := by
  rcases h with cause | cause | ⟨cause, hoff, hidle, -⟩
  · exact .withRecording rfl rfl rfl
  · exact .skipId
  · exact .withRecording rfl hidle.symm rfl

/-- A snap that the camera refused discards exactly the folder of its session. -/
theorem SnapRefused.withdrawn {after : Station PatternCamera} {cause : CaptureError}
    (h : SnapRefused now s (.capture cause) after) : Withdrawn now s after := by
  rcases h with _ | _ | ⟨-, hoff, hidle, hfolder⟩
  have hfresh := s.recording.upcoming_notMem_known now
  refine ⟨{ s.recording.opened s.settings now with snapPending := true },
    s.recording.upcoming now, ?_, hfresh, ?_, ?_, rfl⟩
  · rcases s.recording.requestSnap_eq s.settings now hoff hidle with ⟨-, hrequest⟩ | ⟨hno, -⟩
    · exact hrequest
    · exact absurd (hfolder.symm.trans hno) (by simp)
  · exact Root.known_create hfolder _ _
  · exact (Root.remove_create hfresh _).symm

/-- Neither of the commands that open a session leaves a trace when it is refused. -/
theorem untouched_of_refused {now : Nat} {wall : WallTime} {command : Command}
    (hcommand : command = .enableRecording ∨ command = .snap)
    (h : (command.apply (Station.control wall now) s).1 = .error e) :
    Untouched s (command.apply (Station.control wall now) s).2 := by
  rcases hcommand with rfl | rfl
  · rcases setRecording_refused h with ⟨cause, -, hafter⟩
    rw [Command.apply, Station.control, hafter]
    exact .skipId
  · exact (snap_refused h).untouched

/-- If it is the camera that refuses, the command was a snap, and its folder is gone. -/
theorem withdrawn_of_refused {now : Nat} {wall : WallTime} {command : Command}
    {cause : CaptureError} (hcommand : command = .enableRecording ∨ command = .snap)
    (h : (command.apply (Station.control wall now) s).1 = .error (.capture cause)) :
    Withdrawn wall s (command.apply (Station.control wall now) s).2 := by
  rcases hcommand with rfl | rfl
  · rcases setRecording_refused h with ⟨other, hcause, -⟩
    cases hcause
  · exact (snap_refused h).withdrawn

end Station

namespace Server.Closing

open Station (Untouched Withdrawn)

/-! ## Happenings -/

/-- What happens next to a server whose recording root is within reach of others. -/
inductive Happening where
  | act (occasion : Occasion)
  /-- Others remove the recording root, or put something else in its place. -/
  | others (root : Root)
deriving Repr

def happen (c : Closing) : Happening → Closing
  | .act occasion => c.act occasion.wall occasion.now occasion.act
  | .others root =>
    let station := c.server.station
    c.withStation (station.withRecording { station.recording with root })

/-- The server after a history of happenings. -/
def through (c : Closing) (history : List Happening) : Closing := history.foldl happen c

/-- Whatever has happened to a server and to its recording root: if switching recording on
or taking a snap is refused, then the switch, the pending snap, the camera and the session
folders are as before, and a snap that the camera refused has lost its own folder only. -/
theorem refused_leaves_no_trace (c : Closing) (history : List Happening) (wall : WallTime)
    (now : Nat) {command : Command} {e : ControlError}
    (hcommand : command = .enableRecording ∨ command = .snap)
    (hrefused : (command.apply (Station.control wall now)
      (c.through history).server.station).1 = .error e) :
    let before := (c.through history).server.station
    let after := (command.apply (Station.control wall now) before).2
    Untouched before after ∧ ∀ cause, e = .capture cause → Withdrawn wall before after := by
  intro before after
  refine ⟨Station.untouched_of_refused hcommand hrefused, ?_⟩
  rintro cause rfl
  exact Station.withdrawn_of_refused hcommand hrefused

/-- A server whose camera waits for triggers and was not started. -/
def unstarted : Closing where
  server :=
    { station := .new { PatternCamera.new with configured := true, mode := .software }
        ⟨.empty 2 1 1, ⟨"frames", .folder [] [], false, false, none, 1⟩, false⟩
      logger := .new 1 1
      service := .new {}
      encoder := ImageFormat.png.encoder }
  stage := .serving

/-- A recording that is over, a root that was lost and found empty, and another recording. -/
def twoRecordings : List Closing.Happening :=
  let recording : List Happening :=
    [.act ⟨.call .enableRecording, 0, 0⟩, .act ⟨.call .disableRecording, 0, 0⟩]
  recording ++ [.others .missing, .others .file, .others (.folder [] [])] ++ recording

theorem snap_refused_beside_session :
    let before := (unstarted.through twoRecordings).server.station
    let after := (before.snap 0).2
    (before.snap 0).1 = .error (.capture (.device "acquisition is not running")) ∧
      (Untouched before after ∧ Withdrawn 0 before after) ∧
      before.root.known = [⟨2, 0⟩] ∧ after.recording.nextId = 4 := by
  intro before after
  have hrefused : (before.snap 0).1 =
      .error (.capture (.device "acquisition is not running")) := rfl
  have huntouched := refused_leaves_no_trace unstarted twoRecordings 0 0 (.inr rfl) hrefused
  refine ⟨hrefused, ⟨huntouched.1, huntouched.2 _ rfl⟩, ?_, ?_⟩
  · decide +kernel
  · decide +kernel

end Server.Closing

end FrameServer
