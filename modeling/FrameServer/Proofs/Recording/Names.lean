import FrameServer.Recording.Session
import FrameServer.Proofs.Calendar.Instant

/-!
# FrameServer.Proofs.Recording.Names — sessions and frames have names of their own

The folder of a session is named after the millisecond at which it was opened, so
sessions of different milliseconds have different folders. The path of a frame
fixes the millisecond of its session and its number, whatever the root is called
and whatever the extension is.
-/

namespace FrameServer

open Calendar (Instant)

/-! ## Paths -/

/-- What a path becomes in front of a name. -/
def leadOf (path : String) : String :=
  if path = "" then "" else if path.toList.getLast? = some '/' then path else path ++ "/"

theorem joinPath_eq (path name : String) : joinPath path name = leadOf path ++ name := by
  unfold joinPath leadOf
  by_cases hempty : path = ""
  · rw [if_pos hempty, if_pos hempty, String.empty_append]
  · rw [if_neg hempty, if_neg hempty]
    split <;> rfl

/-- A path that does not end in a slash gets one. -/
theorem joinPath_toList {path : String} (hne : path ≠ "")
    (hlast : path.toList.getLast? ≠ some '/') (name : String) :
    (joinPath path name).toList = path.toList ++ '/' :: name.toList := by
  rw [joinPath, if_neg hne, if_neg hlast]
  simp

namespace Session

variable {s t : Session}

/-! ## Folders -/

theorem dayName_toList (s : Session) : s.dayName.toList = s.startInstant.dateText := by
  rw [dayName, String.toList_ofList]

theorem folderName_toList (s : Session) :
    s.folderName.toList = s.startInstant.dateText ++ '_' :: s.startInstant.clockText '.' := by
  rw [folderName, String.toList_ofList]

theorem slash_notMem_dayName (s : Session) : '/' ∉ s.dayName.toList := by
  rw [dayName_toList]
  exact Instant.notMem_dateText (by decide) (by decide) (by decide) (by decide) _

theorem slash_notMem_folderName (s : Session) : '/' ∉ s.folderName.toList := by
  rw [folderName_toList, List.mem_append, List.mem_cons, not_or, not_or, ← dayName_toList]
  refine ⟨s.slash_notMem_dayName, by decide, ?_⟩
  exact Instant.notMem_clockText (by decide) (by decide) (by decide) _

theorem dayName_ne_empty (s : Session) : s.dayName ≠ "" := by
  intro hempty
  have hlist : s.dayName.toList = [] := by rw [hempty]; exact String.toList_empty
  rw [dayName_toList] at hlist
  exact Instant.dateText_ne_nil _ hlist

theorem folderName_ne_nil (s : Session) : s.folderName.toList ≠ [] := by
  rw [folderName_toList]
  exact List.append_ne_nil_of_right_ne_nil _ (List.cons_ne_nil _ _)

/-- The last character of a text without a slash is none. -/
theorem getLast?_ne_slash {text : List Char} (hslash : '/' ∉ text) :
    text.getLast? ≠ some '/' := by
  intro hlast
  exact hslash (List.mem_of_getLast? hlast)

theorem relativePath_toList (s : Session) :
    s.relativePath.toList = s.dayName.toList ++ '/' :: s.folderName.toList :=
  joinPath_toList s.dayName_ne_empty (getLast?_ne_slash s.slash_notMem_dayName) _

/-- The name of a session's folder fixes the moment at which it was opened. -/
theorem started_eq_of_folderName_eq (h : s.folderName = t.folderName) :
    s.started = t.started := by
  have hlist := congrArg String.toList h
  rw [folderName_toList, folderName_toList] at hlist
  exact Instant.eq_of_texts_eq (by decide) (by decide) hlist

theorem started_eq_of_relativePath_eq (h : s.relativePath = t.relativePath) :
    s.started = t.started := by
  have hlist := congrArg String.toList h
  rw [relativePath_toList, relativePath_toList] at hlist
  obtain ⟨-, hfolder⟩ :=
    Decimal.eq_of_append_mark_eq s.slash_notMem_dayName t.slash_notMem_dayName hlist
  exact started_eq_of_folderName_eq (String.toList_inj.mp hfolder)

/-! ## Frames -/

theorem frameName_toList (number : Nat) (extension : String) :
    (frameName number extension).toList =
      Decimal.padded 5 number ++ '_' :: ("frame.".toList ++ extension.toList) := by
  rw [frameName, String.toList_append, String.toList_append, String.toList_ofList,
    List.append_assoc]
  rfl

/-- The name of a frame fixes its number. -/
theorem number_eq_of_frameName_eq {extension : String} {m n : Nat}
    (h : frameName m extension = frameName n extension) : m = n := by
  have hlist := congrArg String.toList h
  rw [frameName_toList, frameName_toList] at hlist
  exact (Decimal.eq_of_padded_mark_eq (by decide) hlist).1

/-- The folder of a session below a root does not end in a slash. -/
theorem folder_getLast?_ne_slash (root : String) (s : Session) :
    (joinPath root s.relativePath).toList.getLast? ≠ some '/' := by
  have hshape : (leadOf root).toList ++ (s.dayName.toList ++ '/' :: s.folderName.toList) =
      ((leadOf root).toList ++ s.dayName.toList ++ ['/']) ++ s.folderName.toList := by
    rw [List.append_assoc, List.append_assoc]
    rfl
  rw [joinPath_eq, String.toList_append, relativePath_toList, hshape, List.getLast?_append]
  cases hlast : s.folderName.toList.getLast? with
  | none => exact absurd (List.getLast?_eq_none_iff.mp hlast) s.folderName_ne_nil
  | some c =>
    rw [Option.some_or, ← hlast]
    exact getLast?_ne_slash s.slash_notMem_folderName

theorem framePath_toList (root : String) (s : Session) (number : Nat) (extension : String) :
    (s.framePath root number extension).toList = (leadOf root).toList ++
      (s.dayName.toList ++ '/' :: (s.folderName.toList ++
        '/' :: (frameName number extension).toList)) := by
  have hne : joinPath root s.relativePath ≠ "" := by
    intro hempty
    have hlist := congrArg String.toList hempty
    rw [joinPath_eq, String.toList_append, relativePath_toList] at hlist
    simp at hlist
  rw [framePath, joinPath_toList hne (s.folder_getLast?_ne_slash root), joinPath_eq,
    String.toList_append, relativePath_toList, List.append_assoc, List.append_assoc,
    List.cons_append]

/-- Below one root, the path of a frame fixes the moment at which its session was
opened and its number. -/
theorem eq_of_framePath_eq {root extension : String} {m n : Nat}
    (h : s.framePath root m extension = t.framePath root n extension) :
    s.started = t.started ∧ m = n := by
  have hlist := congrArg String.toList h
  rw [framePath_toList, framePath_toList, List.append_cancel_left_eq] at hlist
  obtain ⟨-, hlist⟩ :=
    Decimal.eq_of_append_mark_eq s.slash_notMem_dayName t.slash_notMem_dayName hlist
  obtain ⟨hfolder, hname⟩ :=
    Decimal.eq_of_append_mark_eq s.slash_notMem_folderName t.slash_notMem_folderName hlist
  exact ⟨started_eq_of_folderName_eq (String.toList_inj.mp hfolder),
    number_eq_of_frameName_eq (String.toList_inj.mp hname)⟩

end Session

end FrameServer
