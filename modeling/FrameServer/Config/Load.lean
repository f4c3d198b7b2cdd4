import FrameServer.Config.Limits
import FrameServer.Config.Setting

/-!
# FrameServer.Config.Load — configurations from files and the environment

Settings come from a file, and above it from environment variables. What neither
of them names keeps its default.

A section may be written as a table or as a list of its fields in their order, and a
choice as its name or as a table with one key, as is documented for types whose reading
is derived from their fields. The name of a variable is its prefix and the path of a
key, with two underscores for a dot; its text is tried as a boolean, an integer and a
float before it is taken as a text.

1. **Errors**
2. **Fields** of each section, in the order in which a section that is written as
   a list gives them.
3. **Sections**
4. **The environment**
5. **Loading**
-/

namespace FrameServer

/-! ## Errors -/

/-- Why settings are no configuration. -/
inductive LoadError where
  /-- There is no file, or nobody knows its format. -/
  | noSource
  /-- The text of the file cannot be read. -/
  | malformed
  /-- A value cannot be read as the type of its field. -/
  | wrongType
  /-- A section has no fields, or a choice is none of those there are. -/
  | wrongShape
deriving DecidableEq, Repr

/-! ## Fields -/

/-- A field of a section of type `σ`. -/
structure ConfigField (σ : Type) where
  name : String
  set : Setting → σ → Except LoadError σ

namespace ConfigField

/-- A field whose values may be of the wrong type. -/
def typed {σ α : Type} (name : String) (read : Setting → Option α) (write : α → σ → σ) :
    ConfigField σ where
  name
  set v s :=
    match read v with
    | some a => .ok (write a s)
    | none => .error .wrongType

/-- A natural number below a bound. -/
def natural {σ : Type} (name : String) (bound : Nat) (write : Nat → σ → σ) : ConfigField σ :=
  typed name (fun v => v.asNatural?.filter (· < bound)) write

/-- An integer of 32 bits. -/
def int32 {σ : Type} (name : String) (write : Int32 → σ → σ) : ConfigField σ :=
  typed name (fun v => v.asInteger?.bind toInt32?) write

/-- The text that names a choice: a text, or the only name in a group. -/
def choiceName? : Setting → Option String
  | .text s => some s
  | .group [(name, _)] => some name
  | _ => none

/-- One of the values of a type with names, in upper or lower case. -/
def choice {σ α : Type} [Named α] (name : String) (write : α → σ → σ) : ConfigField σ where
  name
  set v s :=
    match (choiceName? v).bind fun s =>
        Named.all.find? fun (name, _) => name.toLower = s.toLower with
    | some (_, a) => .ok (write a s)
    | none => .error .wrongShape

end ConfigField

open ConfigField

def CaptureConfig.fields : List (ConfigField CaptureConfig) :=
  [choice "backend" fun x c => { c with backend := x },
   typed "device" Setting.asText? fun x c => { c with device := x },
   natural "width" UInt32.size fun n c => { c with width := .ofNat n },
   natural "height" UInt32.size fun n c => { c with height := .ofNat n },
   natural "offset_x" UInt32.size fun n c => { c with offsetX := .ofNat n },
   natural "offset_y" UInt32.size fun n c => { c with offsetY := .ofNat n },
   typed "rate_hz" Setting.asFloat? fun x c => { c with rateHz := x },
   int32 "gain" fun n c => { c with gain := n },
   int32 "exposure_us" fun n c => { c with exposureUs := n },
   choice "trigger" fun x c => { c with trigger := x }]

def BufferConfig.fields : List (ConfigField BufferConfig) :=
  [natural "capacity" UInt64.size fun n c => { c with capacity := .ofNat n },
   typed "memory_fraction" Setting.asFloat? fun x c => { c with memoryFraction := x }]

def ServerConfig.fields : List (ConfigField ServerConfig) :=
  [typed "bind_address" Setting.asText? fun x c => { c with bindAddress := x },
   natural "frame_port" UInt16.size fun n c => { c with framePort := .ofNat n },
   natural "command_port" UInt16.size fun n c => { c with commandPort := .ofNat n },
   natural "telemetry_port" UInt16.size fun n c => { c with telemetryPort := .ofNat n },
   typed "publish_rate_hz" Setting.asFloat? fun x c => { c with publishRateHz := x },
   natural "poll_interval_ms" UInt64.size fun n c => { c with pollIntervalMs := .ofNat n },
   natural "write_timeout_ms" UInt64.size fun n c => { c with writeTimeoutMs := .ofNat n }]

def RecordingConfig.fields : List (ConfigField RecordingConfig) :=
  [typed "root_dir" Setting.asText? fun x c => { c with rootDir := x },
   typed "enabled" Setting.asBool? fun x c => { c with enabled := x },
   natural "workers" UInt64.size fun n c => { c with workers := .ofNat n },
   choice "image_format" fun x c => { c with imageFormat := x },
   typed "timestamp_ticks_per_second" Setting.asFloat? fun x c => { c with ticksPerSecond := x }]

/-! ## Sections -/

/-- Sets the fields that a group names. -/
def setNamed {σ : Type} (entries : List (String × Setting)) :
    List (ConfigField σ) → σ → Except LoadError σ
  | [], s => .ok s
  | f :: rest, s =>
    match entries.lookup f.name with
    | none => setNamed entries rest s
    | some v =>
      match f.set v s with
      | .error e => .error e
      | .ok s => setNamed entries rest s

/-- Sets the fields in their order from the items of a list, as far as both go. -/
def setListed {σ : Type} : List (ConfigField σ) → List Setting → σ → Except LoadError σ
  | f :: fields, v :: items, s =>
    match f.set v s with
    | .error e => .error e
    | .ok s => setListed fields items s
  | _, _, s => .ok s

/-- Reads a section over its defaults. -/
def readSection {σ : Type} (fields : List (ConfigField σ)) (v : Setting) (s : σ) :
    Except LoadError σ :=
  match v with
  | .group entries => setNamed entries fields s
  | .list items => setListed fields items s
  | _ => .error .wrongShape

/-- A section as a field of the whole configuration. -/
def sectionField {σ : Type} (name : String) (fields : List (ConfigField σ)) (get : Config → σ)
    (write : σ → Config → Config) : ConfigField Config where
  name
  set v c := (readSection fields v (get c)).map fun s => write s c

namespace Config

def sections : List (ConfigField Config) :=
  [sectionField "capture" CaptureConfig.fields capture fun s c => { c with capture := s },
   sectionField "buffer" BufferConfig.fields buffer fun s c => { c with buffer := s },
   sectionField "server" ServerConfig.fields server fun s c => { c with server := s },
   sectionField "recording" RecordingConfig.fields recording fun s c => { c with recording := s }]

/-- The configuration in a tree of settings. -/
def ofSetting (s : Setting) : Except LoadError Config := setNamed s.entries sections {}

/-! ## The environment -/

/-- What the names of variables begin with. -/
def variableStem : String := "camserver__"

/-- Two underscores in a row become a dot. -/
def dotted : List Char → List Char
  | '_' :: '_' :: rest => '.' :: dotted rest
  | c :: rest => c :: dotted rest
  | [] => []

/-- The key path that the name of a variable stands for. -/
def variableKey? (name : String) : Option String :=
  let name := (Setting.foldName name).toList
  if variableStem.toList.isPrefixOf name then
    some (String.ofList (dotted (name.drop variableStem.length)))
  else none

/-- What the text of a variable says: yes or no, a number, or itself. -/
def variableValue (text : String) : Setting :=
  if text.toLower = "true" then .boolean true
  else if text.toLower = "false" then .boolean false
  else match (Decimal.integer? text.toList).filter fitsInt64 with
    | some n => .integer n
    | none =>
      match Decimal.float? text.toList with
      | some x => .float x
      | none => .text text

/-- The settings in the variables of the environment. -/
def environmentLayer (environment : List (String × String)) : List (String × Setting) :=
  environment.filterMap fun (name, text) =>
    (variableKey? name).map fun key => (key, variableValue text)

/-! ## Loading -/

/-- The name of a file after its last point. -/
def extension (path : String) : String :=
  let name := path.toList.reverse.takeWhile (· ≠ '/')
  let ending := name.takeWhile (· ≠ '.')
  if ending.length + 1 < name.length then String.ofList ending.reverse else ""

/-- The settings in the text of a document. -/
def documentLayer (text : String) : Except LoadError (List (String × Setting)) :=
  match Toml.document? text.toList with
  | some entries => .ok (Setting.ofEntries entries)
  | none => .error .malformed

/-- The settings in a file: its path, and its text if it is there. -/
def fileLayer (path : String) (text : Option String) : Except LoadError (List (String × Setting)) :=
  match text with
  | none => .error .noSource
  | some text => if extension path = "toml" then documentLayer text else .error .noSource

/-- The configuration in some layers, the lowest first. -/
def ofLayers (layers : List (List (String × Setting))) : Except LoadError Config :=
  ofSetting (layers.foldl (fun s layer => s.overlay layer) (.group []))

/-- The configuration from a file, if one is given, and the environment. It may
break limits, which later changes can mend. -/
def load (file : Option (String × Option String)) (environment : List (String × String)) :
    Except LoadError Config := do
  let lowest ← match file with
    | none => .ok []
    | some (path, text) => fileLayer path text
  ofLayers [lowest, environmentLayer environment]

/-- The configuration in the text of a document. -/
def ofDocument (text : String) : Except LoadError Config := do
  ofLayers [← documentLayer text]

end Config

end FrameServer
