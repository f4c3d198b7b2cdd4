import FrameServer.Decimal.Literal
import FrameServer.Number.Width
import FrameServer.Text.Blank

/-!
# FrameServer.Control.Command — the command vocabulary

A command is recognised by the word that its text begins with; what follows the
word is not looked at, except for the value of the two commands that set one.
-/

namespace FrameServer

inductive Command where
  | enableRecording
  | disableRecording
  | setGain (gain : Int32)
  | setExposure (exposure : Int32)
  | stopImaging
  | exit
  | snap
deriving DecidableEq, Repr

/-- What a command can set. -/
inductive Command.Field where
  | gain
  | exposure
deriving DecidableEq, Repr

def Command.Field.name : Command.Field → String
  | gain => "gain"
  | exposure => "exposure"

/-- Why a text is no command. -/
inductive CommandError where
  | unknown
  | invalidValue (field : Command.Field)
deriving DecidableEq, Repr

def CommandError.message : CommandError → String
  | unknown => "Unknown command."
  | invalidValue field => "Invalid " ++ field.name ++ " value."

namespace Command

/-- What a keyword announces. -/
inductive Form where
  /-- The keyword is the command. -/
  | plain (command : Command)
  /-- A value follows the keyword. -/
  | valued (field : Field)
deriving DecidableEq, Repr

/-- The words that commands begin with. None of them begins another. -/
def vocabulary : List (String × Form) :=
  [("ENABLE_RECORDING", .plain .enableRecording),
   ("DISABLE_RECORDING", .plain .disableRecording),
   ("GAIN=", .valued .gain),
   ("EXPOSURE=", .valued .exposure),
   ("STOP_IMAGING", .plain .stopImaging),
   ("EXIT", .plain .exit),
   ("SNAP", .plain .snap)]

/-- The command that sets a field. -/
def set : Field → Int32 → Command
  | .gain => setGain
  | .exposure => setExposure

/-- An integer of 32 bits with white space around it. -/
def value? (text : List Char) : Option Int32 :=
  (Decimal.integer? (Text.trim text)).bind toInt32?

/-- Completes a keyword with the text after it. -/
def Form.complete (form : Form) (rest : List Char) : Except CommandError Command :=
  match form with
  | plain command => .ok command
  | valued field =>
    match value? rest with
    | some n => .ok (set field n)
    | none => .error (.invalidValue field)

/-- The command that a text begins with, by the first of some keywords. -/
def parseAmong : List (String × Form) → List Char → Except CommandError Command
  | [], _ => .error .unknown
  | (word, form) :: others, text =>
    if word.toList.isPrefixOf text then form.complete (text.drop word.toList.length)
    else parseAmong others text

def parse (text : List Char) : Except CommandError Command := parseAmong vocabulary text

/-- What clients may append to a command: white space and zero bytes. -/
def isPadding (c : Char) : Bool := c == '\u0000' || Text.isBlank c

/-- The text without what a client appended to it. -/
def stripPadding (text : List Char) : List Char := Text.dropTrailing isPadding text

end Command

end FrameServer
