import FrameServer.Control.Scripted
import FrameServer.Proofs.Text.Blank

/-!
# FrameServer.Proofs.Control.Padding — commands with something appended

Clients fill a command up with zero bytes and white space. What the control is called
for and what the client is told do not depend on it. A text that is no command calls for
nothing; a command makes one call, and is given back if that call succeeds.

1. **Calls** that a control is asked to carry out.
2. **Watched controls** remember the calls that were made.
3. **Padded commands**
-/

namespace FrameServer

/-! ## Calls -/

/-- What a control can be called for, with the value that goes with it. -/
inductive Control.Call where
  | setRecording (on : Bool)
  | setGain (gain : Int32)
  | setExposure (exposure : Int32)
  | stopImaging
  | exit
  | snap
deriving DecidableEq, Repr

/-- The call that a command makes. -/
def Command.call : Command → Control.Call
  | enableRecording => .setRecording true
  | disableRecording => .setRecording false
  | setGain gain => .setGain gain
  | setExposure exposure => .setExposure exposure
  | stopImaging => .stopImaging
  | exit => .exit
  | snap => .snap

/-! ## Watched controls -/

/-- What a method does, with the calls so far kept beside the state. -/
def Control.Call.noted {σ : Type} (call : Call) (method : σ → Except ControlError Unit × σ)
    (watched : σ × List Call) : Except ControlError Unit × σ × List Call :=
  let (result, s) := method watched.1
  (result, s, watched.2 ++ [call])

/-- The control, each method of which notes that it was called. -/
def Control.watched {σ : Type} (control : Control σ) : Control (σ × List Call) where
  setRecording on := (Call.setRecording on).noted (control.setRecording on)
  setGain gain := (Call.setGain gain).noted (control.setGain gain)
  setExposure exposure := (Call.setExposure exposure).noted (control.setExposure exposure)
  stopImaging := Call.stopImaging.noted control.stopImaging
  exit := Call.exit.noted control.exit
  snap := Call.snap.noted control.snap

/-- A command calls one method, once. -/
theorem Command.apply_watched {σ : Type} (control : Control σ) (command : Command) (s : σ)
    (calls : List Control.Call) :
    command.apply control.watched (s, calls) =
      ((command.apply control s).1, (command.apply control s).2, calls ++ [command.call]) := by
  cases command <;> rfl

section Watched

variable {σ : Type} (control : Control σ) {raw : List Char} (s : σ)
  (calls : List Control.Call)

/-- A text that is no command calls for nothing. -/
theorem answer_watched_of_error {e : CommandError}
    (hparse : Command.parse (Command.stripPadding raw) = .error e) :
    answer control.watched raw (s, calls) = (.err e.message, s, calls) := by
  simp [answer, hparse]

/-- A command makes its own call and no other. -/
theorem answer_watched_of_ok {command : Command}
    (hparse : Command.parse (Command.stripPadding raw) = .ok command) :
    answer control.watched raw (s, calls) =
      ((answer control raw s).1, (command.apply control s).2, calls ++ [command.call]) := by
  have hwatched := command.apply_watched control s calls
  rcases hcontrol : command.apply control s with ⟨_ | _, s'⟩
  all_goals
    rw [hcontrol] at hwatched
    simp [answer, hparse, hwatched, hcontrol]

/-- Being watched makes no difference to a control. -/
theorem answer_eq_answer_watched :
    answer control raw s =
      ((answer control.watched raw (s, calls)).1, (answer control.watched raw (s, calls)).2.1) := by
  cases hparse : Command.parse (Command.stripPadding raw) with
  | error e =>
    rw [answer_watched_of_error control s calls hparse]
    simp [answer, hparse]
  | ok command =>
    rw [answer_watched_of_ok control s calls hparse]
    rcases hcontrol : command.apply control s with ⟨_ | _, s'⟩
    all_goals simp [answer, hparse, hcontrol]

end Watched

/-! ## Padded commands -/

theorem Command.stripPadding_append {pad : List Char}
    (hpad : ∀ c ∈ pad, c = '\u0000' ∨ c ∈ Text.blanks) (raw : List Char) :
    stripPadding (raw ++ pad) = stripPadding raw := by
  apply Text.dropTrailing_append
  intro c hc
  simpa [isPadding, Text.isBlank] using hpad c hc

theorem answer_append {pad : List Char} (hpad : ∀ c ∈ pad, c = '\u0000' ∨ c ∈ Text.blanks)
    {σ : Type} (control : Control σ) (raw : List Char) (s : σ) :
    answer control (raw ++ pad) s = answer control raw s := by
  rw [answer, answer, Command.stripPadding_append hpad]

/-- Zero bytes and white space behind a text, in any mixture, change neither what the
control is called for nor the reply. A text that is no command without its padding calls
for nothing, and a command makes its one call. It is given back without its padding if
the call succeeds, and nothing else is; all else is answered with the reason. -/
theorem answer_padded {pad : List Char} (hpad : ∀ c ∈ pad, c = '\u0000' ∨ c ∈ Text.blanks)
    {σ : Type} (control : Control σ) (raw : List Char) (s : σ) :
    let text := Command.stripPadding raw
    let result := answer control.watched raw (s, [])
    answer control.watched (raw ++ pad) (s, []) = result ∧
      answer control raw s = (result.1, result.2.1) ∧
      (∀ e, Command.parse text = .error e → result.2 = (s, [])) ∧
      (∀ command, Command.parse text = .ok command →
        result.2 = ((command.apply control s).2, [command.call])) ∧
      (∀ echo, result.1 = .ack echo ↔
        echo = text ∧ ∃ command, Command.parse text = .ok command ∧
          (command.apply control s).1 = .ok ()) ∧
      ∀ reason, result.1 = .err reason ↔
        (∃ e, Command.parse text = .error e ∧ e.message = reason) ∨
          ∃ command e, Command.parse text = .ok command ∧
            (command.apply control s).1 = .error e ∧ e.message = reason := by
  intro text result
  refine ⟨answer_append hpad control.watched raw (s, []),
    answer_eq_answer_watched control s [], ?_⟩
  cases hparse : Command.parse text with
  | error e =>
    have hresult : result = (.err e.message, s, []) := answer_watched_of_error control s [] hparse
    simp [hresult]
  | ok command =>
    have hresult : result =
        ((answer control raw s).1, (command.apply control s).2, [command.call]) :=
      answer_watched_of_ok control s [] hparse
    rcases hcontrol : command.apply control s with ⟨e | _, s'⟩
    · have hreply : (answer control raw s).1 = .err e.message := by
        simp [answer, text, hparse, hcontrol]
      simp [hresult, hreply, hcontrol]
    · have hreply : (answer control raw s).1 = .ack text := by
        simp [answer, text, hparse, hcontrol]
      simp [hresult, hreply, hcontrol, eq_comm]

/-- White space stands before, between and behind the zero bytes. The gain is set once and
its command is given back without them; a snap behind which they stand is called for once
and refused; they alone are no command. -/
theorem answered_once_behind_padding :
    let control := ScriptedControl.control [(.snap, .recording .snapWhileRecording)]
    let pad := "\u3000\u0000 \u0000\u0000\r\n".toList
    (∀ c ∈ pad, c = '\u0000' ∨ c ∈ Text.blanks) ∧
      (answer control.watched ("GAIN= 50".toList ++ pad) ([], [])).1 = .ack "GAIN= 50".toList ∧
      (answer control.watched ("GAIN= 50".toList ++ pad) ([], [])).2.2 = [.setGain 50] ∧
      (answer control.watched ("SNAP".toList ++ pad) ([], [])).1 =
        .err "Snap only works when recording is disabled." ∧
      (answer control.watched ("SNAP".toList ++ pad) ([], [])).2.2 = [.snap] ∧
      answer control.watched ([] ++ pad) ([], []) = (.err "Unknown command.", [], []) := by
  intro control pad
  have hall : pad.all (fun c => decide (c = '\u0000' ∨ c ∈ Text.blanks)) = true := by decide
  have hpad : ∀ c ∈ pad, c = '\u0000' ∨ c ∈ Text.blanks := fun c hc =>
    of_decide_eq_true (List.all_eq_true.mp hall c hc)
  obtain ⟨hgain, -, -, hset, hback, -⟩ := answer_padded hpad control "GAIN= 50".toList []
  obtain ⟨hsnap, -, -, hasked, -, hrefused⟩ := answer_padded hpad control "SNAP".toList []
  obtain ⟨hblank, -, hnothing, -, -, hunknown⟩ := answer_padded hpad control [] []
  have hgainParse : Command.parse (Command.stripPadding "GAIN= 50".toList) = .ok (.setGain 50) := by
    decide
  have hsnapParse : Command.parse (Command.stripPadding "SNAP".toList) = .ok .snap := by decide
  have hblankParse : Command.parse (Command.stripPadding []) = .error .unknown := by decide
  rw [hgain, hsnap, hblank]
  refine ⟨hpad, ?_, ?_, ?_, ?_, ?_⟩
  · exact (hback _).mpr ⟨by decide, .setGain 50, hgainParse, rfl⟩
  · exact congrArg Prod.snd (hset _ hgainParse)
  · exact (hrefused _).mpr (.inr ⟨.snap, _, hsnapParse, rfl, rfl⟩)
  · exact congrArg Prod.snd (hasked _ hsnapParse)
  · exact Prod.ext ((hunknown _).mpr (.inl ⟨_, hblankParse, rfl⟩)) (hnothing _ hblankParse)

end FrameServer
