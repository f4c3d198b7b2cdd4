import FrameServer.Control.Scripted
import FrameServer.Proofs.Text.Blank

/-!
# FrameServer.Proofs.Control.Line — when a reply is one line

A reply begins with `ACK: ` or `ERR: ` and ends with a line break. Somebody who reads
one line should get all of it. What an error says is one line; what is given back of
a command is one exactly if the command has no line break inside.

1. **Lines**: texts with one line break, at their end.
2. **Answers**: which reply a command gets.
3. **Replies of one line**
-/

namespace FrameServer.Reply

/-! ## Lines -/

/-- There is one line break in the text, and it is the last character. -/
structure OneLine (text : List Char) : Prop where
  count : text.count '\n' = 1
  last : text.getLast? = some '\n'

/-- What is read up to the first line break. -/
def firstLine : List Char → List Char
  | [] => []
  | c :: rest => if c = '\n' then [c] else c :: firstLine rest

theorem oneLine_append_iff {body : List Char} : OneLine (body ++ ['\n']) ↔ '\n' ∉ body := by
  constructor
  · intro h
    have hcount := h.count
    rw [List.count_append, List.count_singleton_self] at hcount
    exact List.count_eq_zero.mp (Nat.succ.inj hcount)
  · intro hbody
    constructor
    · rw [List.count_append, List.count_eq_zero.mpr hbody, List.count_singleton_self]
    · exact List.getLast?_concat

theorem firstLine_append_iff {body : List Char} :
    firstLine (body ++ ['\n']) = body ++ ['\n'] ↔ '\n' ∉ body := by
  induction body with
  | nil => simp [firstLine]
  | cons c rest ih =>
    by_cases hc : c = '\n'
    · -- reading stops at the front, and there is more behind
      subst hc
      simp [firstLine]
    · have hc' : '\n' ≠ c := fun h => hc h.symm
      simp [firstLine, hc, hc', ih]

/-- The line of a reply without its line break. -/
def body : Reply → List Char
  | ack text => "ACK: ".toList ++ text
  | err reason => "ERR: ".toList ++ reason.toList

theorem line_eq (reply : Reply) : reply.line = reply.body ++ ['\n'] := by
  cases reply <;> rfl

theorem prefix_line (reply : Reply) :
    "ACK: ".toList <+: reply.line ∨ "ERR: ".toList <+: reply.line := by
  rw [line_eq]
  cases reply with
  | ack text => exact .inl ((List.prefix_append _ _).trans (List.prefix_append _ _))
  | err reason => exact .inr ((List.prefix_append _ _).trans (List.prefix_append _ _))

theorem newline_mem_body_ack (text : List Char) : '\n' ∈ (ack text).body ↔ '\n' ∈ text := by
  have hmark : '\n' ∉ "ACK: ".toList := by decide
  exact List.mem_append.trans (or_iff_right hmark)

theorem newline_mem_body_err (reason : String) :
    '\n' ∈ (err reason).body ↔ '\n' ∈ reason.toList := by
  have hmark : '\n' ∉ "ERR: ".toList := by decide
  exact List.mem_append.trans (or_iff_right hmark)

end Reply

/-! ## Answers -/

namespace Control

variable {σ : Type}

/-- What the control says of a failure has no line break. -/
def Quiet (control : Control σ) : Prop :=
  ∀ command s e s', Command.apply control command s = (.error e, s') → '\n' ∉ e.message.toList

/-- The text is a command, and the control carries it out. -/
def Accepts (control : Control σ) (raw : List Char) (s : σ) : Prop :=
  ∃ command s', Command.parse (Command.stripPadding raw) = .ok command ∧
    command.apply control s = (.ok (), s')

end Control

theorem CommandError.newline_notMem_message (e : CommandError) : '\n' ∉ e.message.toList := by
  rcases e with _ | field
  · decide
  · cases field <;> decide

section Answer

variable {σ : Type} {control : Control σ} {raw : List Char} {s : σ}

/-- A command that is carried out is given back without its padding. -/
theorem answer_of_accepts (haccepts : control.Accepts raw s) :
    (answer control raw s).1 = .ack (Command.stripPadding raw) := by
  obtain ⟨command, s', hparse, hcontrol⟩ := haccepts
  simp [answer, hparse, hcontrol]

/-- What is not carried out is answered with a reason, by the vocabulary or by the
control. -/
theorem answer_of_not_accepts (hquiet : control.Quiet) (hrefuses : ¬ control.Accepts raw s) :
    ∃ reason, (answer control raw s).1 = .err reason ∧ '\n' ∉ reason.toList := by
  cases hparse : Command.parse (Command.stripPadding raw) with
  | error e =>
    refine ⟨e.message, ?_, e.newline_notMem_message⟩
    simp [answer, hparse]
  | ok command =>
    rcases hcontrol : command.apply control s with ⟨_ | _, s'⟩
    · next e =>
      refine ⟨e.message, ?_, hquiet command s e s' hcontrol⟩
      simp [answer, hparse, hcontrol]
    · exact absurd ⟨command, s', hparse, hcontrol⟩ hrefuses

/-! ## Replies of one line -/

/-- Something that is no padding stands behind a line break. -/
def Command.BreakInside (raw : List Char) : Prop :=
  ∃ before after, raw = before ++ '\n' :: after ∧ ∃ c ∈ after, Command.isPadding c = false

theorem Command.mem_stripPadding_iff :
    '\n' ∈ Command.stripPadding raw ↔ Command.BreakInside raw :=
  Text.mem_dropTrailing_iff (by decide)

/-- A reply begins with `ACK: ` or `ERR: ` and ends with a line break. It is one line,
and reading one line gets all of it, exactly if it does not give a command back with
something behind a line break. -/
theorem oneLine_iff_no_break_given_back (hquiet : control.Quiet) :
    let line := (answer control raw s).1.line
    ("ACK: ".toList <+: line ∨ "ERR: ".toList <+: line) ∧ line.getLast? = some '\n' ∧
      (Reply.OneLine line ↔ ¬ (control.Accepts raw s ∧ Command.BreakInside raw)) ∧
      (Reply.firstLine line = line ↔ Reply.OneLine line) := by
  intro line
  have hline : line = (answer control raw s).1.body ++ ['\n'] := Reply.line_eq _
  refine ⟨Reply.prefix_line _, ?_, ?_, ?_⟩
  · rw [hline]
    exact List.getLast?_concat
  · rw [hline, Reply.oneLine_append_iff]
    by_cases haccepts : control.Accepts raw s
    · rw [answer_of_accepts haccepts, Reply.newline_mem_body_ack, Command.mem_stripPadding_iff,
        and_iff_right haccepts]
    · obtain ⟨reason, hreply, hreason⟩ := answer_of_not_accepts hquiet haccepts
      rw [hreply, Reply.newline_mem_body_err]
      exact iff_of_true hreason fun h => haccepts h.1
  · rw [hline, Reply.oneLine_append_iff, Reply.firstLine_append_iff]

end Answer

/-- A scripted control fails only in the ways it was told to. -/
theorem ScriptedControl.quiet {refusals : List (Kind × ControlError)}
    (h : ∀ refusal ∈ refusals, '\n' ∉ refusal.2.message.toList) : (control refusals).Quiet := by
  have hnote : ∀ kind text calls e calls', note refusals kind text calls = (.error e, calls') →
      '\n' ∉ e.message.toList := by
    intro kind text calls e calls' hrefused
    unfold note at hrefused
    dsimp only at hrefused
    split at hrefused
    · next hlookup =>
      cases hrefused
      obtain ⟨before, after, rfl, -⟩ := List.lookup_eq_some_iff.mp hlookup
      exact h (_, e) (List.mem_append_right _ List.mem_cons_self)
    · cases hrefused
  intro command calls e calls' hcontrol
  cases command <;> exact hnote _ _ calls e calls' hcontrol

/-- A command with padding behind it, line breaks among it, gets one line, and so does a
command that is refused. -/
theorem oneLine_of_padded_command :
    let control := ScriptedControl.control [(.snap, .recording .snapWhileRecording)]
    control.Quiet ∧
      Reply.OneLine (answer control "GAIN= 50\r\n\u0000\n".toList []).1.line ∧
      Reply.OneLine (answer control "SNAP\nSNAP".toList []).1.line := by
  intro control
  have hquiet : control.Quiet := ScriptedControl.quiet (by decide)
  refine ⟨hquiet, ?_, ?_⟩
  · obtain ⟨-, -, hline, -⟩ :=
      @oneLine_iff_no_break_given_back _ control "GAIN= 50\r\n\u0000\n".toList [] hquiet
    refine hline.mpr ?_
    rintro ⟨-, hbreak⟩
    rw [← Command.mem_stripPadding_iff] at hbreak
    revert hbreak
    decide
  · obtain ⟨-, -, hline, -⟩ :=
      @oneLine_iff_no_break_given_back _ control "SNAP\nSNAP".toList [] hquiet
    refine hline.mpr ?_
    rintro ⟨⟨command, s', hparse, hcontrol⟩, -⟩
    have hsnap : Command.parse (Command.stripPadding "SNAP\nSNAP".toList) = .ok .snap := by decide
    rw [hparse] at hsnap
    cases hsnap
    cases hcontrol

/-- A command with another one behind a line break is given back with the line break. -/
theorem not_oneLine_of_two_commands :
    let control := ScriptedControl.control [(.snap, .recording .snapWhileRecording)]
    control.Quiet ∧
      (answer control "EXIT\nSNAP".toList []).1.line = "ACK: EXIT\nSNAP\n".toList ∧
      ¬ Reply.OneLine (answer control "EXIT\nSNAP".toList []).1.line := by
  intro control
  have hline : (answer control "EXIT\nSNAP".toList []).1.line = "ACK: EXIT\nSNAP\n".toList := by
    decide
  refine ⟨ScriptedControl.quiet (by decide), hline, ?_⟩
  intro hone
  have hcount := hone.count
  rw [hline] at hcount
  revert hcount
  decide

end FrameServer
