import FrameServer.Config.Basic
import FrameServer.Decimal.Literal

/-!
# FrameServer.Cli.Options — the command line

Options have a long name and some a short one too. The value of an option follows
an equals sign, stands in the next word, or follows a short name directly; a word
that begins with a dash is no value. Short options without a value may share one
dash. An option is given at most once.

1. **Options** and what they can hold.
2. **Words**: which option a word names.
3. **Reading** the words from left to right. What is wrong first decides, and so
   does the first wish for help or for the version.
-/

namespace FrameServer.Cli

/-! ## Options -/

/-- What is chosen on the command line. -/
structure Options where
  config : Option String := none
  framePort : Option UInt16 := none
  commandPort : Option UInt16 := none
  telemetryPort : Option UInt16 := none
  rate : Option Binary64 := none
  width : Option UInt32 := none
  height : Option UInt32 := none
  offsetX : Option UInt32 := none
  offsetY : Option UInt32 := none
  logDir : Option String := none
  enableLogging : Bool := false
  disableLogging : Bool := false
  /-- Seconds after which the server shuts down. -/
  duration : Option UInt64 := none
  /-- Seconds between two reports. -/
  statsInterval : UInt64 := 10
  verbose : Bool := false
deriving DecidableEq, Repr

/-- Why reading ends before all words are read. -/
inductive Stop where
  | help
  | version
  /-- The words are no command line. -/
  | usage
deriving DecidableEq, Repr

/-- What an option does with the options read so far. -/
inductive Action where
  | flag (set : Options → Options)
  /-- Reads a value; gives nothing for a value that it cannot hold. -/
  | value (set : List Char → Options → Option Options)
  | stop (s : Stop)

/-- An option under its names. -/
structure Entry where
  long : String
  short : Option Char
  action : Action

/-- An integer below a bound, which may have a plus sign or be written `-0`. -/
def bounded? (bound : Nat) (text : List Char) : Option Nat :=
  match Decimal.integer? text with
  | none => none
  | some n => if 0 ≤ n ∧ n < bound then some n.toNat else none

/-- A natural number below a bound, which may have a plus sign. -/
def natural? (bound : Nat) (text : List Char) : Option Nat :=
  (Decimal.unsigned? text).filter (· < bound)

/-- A path, which is not empty. -/
def path? (text : List Char) : Option String :=
  if text = [] then none else some (String.ofList text)

/-- An action that reads a value of a type. -/
def reading {α : Type} (read : List Char → Option α) (write : α → Options → Options) : Action :=
  .value fun text o => (read text).map fun a => write a o

/-- An action that reads a word of 16 bits. -/
def reading16 (write : UInt16 → Options → Options) : Action :=
  reading (bounded? UInt16.size) fun n => write (.ofNat n)

/-- An action that reads a word of 32 bits. -/
def reading32 (write : UInt32 → Options → Options) : Action :=
  reading (bounded? UInt32.size) fun n => write (.ofNat n)

/-- An action that reads a word of 64 bits. -/
def reading64 (write : UInt64 → Options → Options) : Action :=
  reading (natural? UInt64.size) fun n => write (.ofNat n)

def entries : List Entry :=
  [⟨"config", some 'c', reading path? fun x o => { o with config := some x }⟩,
   ⟨"frame-port", none, reading16 fun n o => { o with framePort := some n }⟩,
   ⟨"command-port", none, reading16 fun n o => { o with commandPort := some n }⟩,
   ⟨"telemetry-port", none, reading16 fun n o => { o with telemetryPort := some n }⟩,
   ⟨"rate", some 'r', reading Decimal.float? fun x o => { o with rate := some x }⟩,
   ⟨"width", none, reading32 fun n o => { o with width := some n }⟩,
   ⟨"height", none, reading32 fun n o => { o with height := some n }⟩,
   ⟨"offset-x", none, reading32 fun n o => { o with offsetX := some n }⟩,
   ⟨"offset-y", none, reading32 fun n o => { o with offsetY := some n }⟩,
   ⟨"log-dir", some 'l', reading path? fun x o => { o with logDir := some x }⟩,
   ⟨"enable-logging", none, .flag fun o => { o with enableLogging := true }⟩,
   ⟨"disable-logging", none, .flag fun o => { o with disableLogging := true }⟩,
   ⟨"duration", some 'd', reading64 fun n o => { o with duration := some n }⟩,
   ⟨"stats-interval", none, reading64 fun n o => { o with statsInterval := n }⟩,
   ⟨"verbose", some 'v', .flag fun o => { o with verbose := true }⟩,
   ⟨"help", some 'h', .stop .help⟩,
   ⟨"version", some 'V', .stop .version⟩]

/-! ## Words -/

/-- A word can be the value of the option before it. -/
def isValue (word : List Char) : Bool := word.head? ≠ some '-' || word = ['-']

/-- The name before an equals sign, and the value after it if there is one. -/
def splitValue (text : List Char) : List Char × Option (List Char) := Decimal.cut (· == '=') text

/-! ## Reading -/

/-- The options read so far, and the long names of those that were given. -/
structure Progress where
  options : Options
  given : List String

/-- Notes that an option is given, which it must not have been before. -/
def Progress.give (name : String) (p : Progress) : Except Stop Progress :=
  if p.given.contains name then .error .usage else .ok { p with given := name :: p.given }

/-- Carries out an option that takes a value. -/
def Progress.takeValue (e : Entry) (set : List Char → Options → Option Options)
    (text : List Char) (p : Progress) : Except Stop Progress :=
  match set text p.options with
  | none => .error .usage
  | some options => { p with options }.give e.long

/-- What is still to be read of the words, and whether the next one is a value. -/
abbrev Waiting := Option (Entry × (List Char → Options → Option Options))

/-- Reads the short options that share a dash, up to one that takes a value. -/
def readShort : List Char → Progress → Except Stop (Progress × Waiting)
  | [], p => .ok (p, none)
  | c :: rest, p =>
    match entries.find? (·.short = some c) with
    | none => .error .usage
    | some e =>
      match e.action with
      | .stop s => .error s
      | .flag set =>
        match { p with options := set p.options }.give e.long with
        | .error s => .error s
        | .ok p => if rest.head? = some '=' then .error .usage else readShort rest p
      | .value set =>
        match rest with
        | [] => .ok (p, some (e, set))
        | '=' :: text => (p.takeValue e set text).map (·, none)
        | text => (p.takeValue e set text).map (·, none)

/-- Reads a long option, without its dashes. -/
def readLong (text : List Char) (p : Progress) : Except Stop (Progress × Waiting) :=
  let (name, value) := splitValue text
  match entries.find? (·.long.toList = name) with
  | none => .error .usage
  | some e =>
    match e.action, value with
    | .stop s, none => .error s
    | .flag set, none => ({ p with options := set p.options }.give e.long).map (·, none)
    | .value set, some text => (p.takeValue e set text).map (·, none)
    | .value set, none => .ok (p, some (e, set))
    | _, some _ => .error .usage

/-- Reads a word that is not the value of an option. After two dashes no option
may follow, nor anything else. -/
def readWord (word : List Char) (p : Progress) : Except Stop (Progress × Waiting) :=
  match word with
  | '-' :: '-' :: text => readLong text p
  | '-' :: c :: rest => readShort (c :: rest) p
  | _ => .error .usage

/-- Reads words one after the other. -/
def readWords : List (List Char) → Waiting → Progress → Except Stop Progress
  | [], none, p => .ok p
  | [], some _, _ => .error .usage
  | word :: rest, some (e, set), p =>
    if isValue word then
      match p.takeValue e set word with
      | .error s => .error s
      | .ok p => readWords rest none p
    else .error .usage
  | word :: rest, none, p =>
    if word = ['-', '-'] then (if rest = [] then .ok p else .error .usage)
    else
      match readWord word p with
      | .error s => .error s
      | .ok (p, waiting) => readWords rest waiting p

/-- Reads a command line. Recording cannot be switched both on and off. -/
def parse (words : List String) : Except Stop Options :=
  match readWords (words.map String.toList) none ⟨{}, []⟩ with
  | .error s => .error s
  | .ok p =>
    if p.options.enableLogging && p.options.disableLogging then .error .usage else .ok p.options

/-- Lays the options over a configuration. -/
def Options.apply (o : Options) (c : Config) : Config :=
  { c with
    server := { c.server with
      framePort := o.framePort.getD c.server.framePort
      commandPort := o.commandPort.getD c.server.commandPort
      telemetryPort := o.telemetryPort.getD c.server.telemetryPort }
    capture := { c.capture with
      rateHz := o.rate.getD c.capture.rateHz
      width := o.width.getD c.capture.width
      height := o.height.getD c.capture.height
      offsetX := o.offsetX.getD c.capture.offsetX
      offsetY := o.offsetY.getD c.capture.offsetY }
    recording := { c.recording with
      rootDir := o.logDir.getD c.recording.rootDir
      enabled := !o.disableLogging && (o.enableLogging || c.recording.enabled) } }

end FrameServer.Cli
