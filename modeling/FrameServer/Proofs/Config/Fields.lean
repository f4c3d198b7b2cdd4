import FrameServer.Cli.Options
import FrameServer.Config.Load

/-!
# FrameServer.Proofs.Config.Fields — the fields of a configuration, one by one

Reading a section sets one field after the other. Each field has a rule of its own: how
its value is read, where it stands in the section, and which option of the command line
sets it. Setting a field changes no other one, so what is read for each field can be told
apart.

1. **Rules** of fields, and the sections as lists of rules.
2. **Setting** independent fields one after the other.
3. **The configuration**: the fields of all sections.
-/

namespace FrameServer

/-! ## Rules -/

/-- The rule of a field of a section `σ`. -/
structure FieldRule (σ : Type) where
  name : String
  Value : Type
  /-- Reads a value of the field. -/
  convert : Setting → Option Value
  get : σ → Value
  write : Value → σ → σ
  /-- What is wrong with a value that cannot be read. -/
  error : LoadError
  /-- The value that the command line gives to the field. -/
  flag : Cli.Options → Option Value

namespace FieldRule

variable {σ : Type}

/-- The field as it is set. -/
def field (r : FieldRule σ) : ConfigField σ where
  name := r.name
  set v s := (r.convert v).elim (.error r.error) fun a => .ok (r.write a s)

/-- A field that no option sets. -/
def noFlag {α : Type} (_ : Cli.Options) : Option α := none

def typed {α : Type} (name : String) (read : Setting → Option α) (get : σ → α)
    (write : α → σ → σ) (flag : Cli.Options → Option α) : FieldRule σ :=
  ⟨name, α, read, get, write, .wrongType, flag⟩

/-- A natural number below a bound, as a word. -/
def natural {α : Type} (name : String) (bound : Nat) (word : Nat → α) (get : σ → α)
    (write : α → σ → σ) (flag : Cli.Options → Option α) : FieldRule σ :=
  typed name (fun v => (v.asNatural?.filter (· < bound)).map word) get write flag

def int32 (name : String) (get : σ → Int32) (write : Int32 → σ → σ) : FieldRule σ :=
  typed name (fun v => v.asInteger?.bind toInt32?) get write noFlag

/-- The value that a choice names. -/
def choose {α : Type} [Named α] (v : Setting) : Option α :=
  ((ConfigField.choiceName? v).bind fun s =>
    Named.all.find? fun (name, _) => name.toLower = s.toLower).map (·.2)

def choice {α : Type} [Named α] (name : String) (get : σ → α) (write : α → σ → σ) :
    FieldRule σ :=
  ⟨name, α, choose, get, write, .wrongShape, noFlag⟩

@[simp] theorem field_typed {α : Type} (name : String) (read : Setting → Option α) (get : σ → α)
    (write : α → σ → σ) (flag : Cli.Options → Option α) :
    (typed name read get write flag).field = ConfigField.typed name read write := by
  unfold field typed ConfigField.typed
  congr 1
  funext v s
  cases hread : read v <;> simp [hread]

@[simp] theorem field_natural {α : Type} (name : String) (bound : Nat) (word : Nat → α)
    (get : σ → α) (write : α → σ → σ) (flag : Cli.Options → Option α) :
    (natural name bound word get write flag).field =
      ConfigField.natural name bound fun n => write (word n) := by
  unfold natural ConfigField.natural ConfigField.typed
  rw [field_typed, ConfigField.typed]
  congr 1
  funext v s
  cases hread : v.asNatural?.filter (· < bound) <;> simp [hread]

@[simp] theorem field_int32 (name : String) (get : σ → Int32) (write : Int32 → σ → σ) :
    (int32 name get write).field = ConfigField.int32 name write :=
  field_typed ..

@[simp] theorem field_choice {α : Type} [Named α] (name : String) (get : σ → α)
    (write : α → σ → σ) : (choice name get write).field = ConfigField.choice name write := by
  unfold field choice choose ConfigField.choice
  congr 1
  funext v s
  cases hread : (ConfigField.choiceName? v).bind fun s =>
    Named.all.find? fun (entry : String × α) => entry.1.toLower = s.toLower <;> simp [hread]

end FieldRule

open FieldRule

def CaptureConfig.rules : List (FieldRule CaptureConfig) :=
  [choice "backend" (·.backend) fun x c => { c with backend := x },
   typed "device" Setting.asText? (·.device) (fun x c => { c with device := x }) noFlag,
   natural "width" UInt32.size .ofNat (·.width) (fun n c => { c with width := n }) (·.width),
   natural "height" UInt32.size .ofNat (·.height) (fun n c => { c with height := n }) (·.height),
   natural "offset_x" UInt32.size .ofNat (·.offsetX) (fun n c => { c with offsetX := n })
    (·.offsetX),
   natural "offset_y" UInt32.size .ofNat (·.offsetY) (fun n c => { c with offsetY := n })
    (·.offsetY),
   typed "rate_hz" Setting.asFloat? (·.rateHz) (fun x c => { c with rateHz := x }) (·.rate),
   int32 "gain" (·.gain) fun n c => { c with gain := n },
   int32 "exposure_us" (·.exposureUs) fun n c => { c with exposureUs := n },
   choice "trigger" (·.trigger) fun x c => { c with trigger := x }]

def BufferConfig.rules : List (FieldRule BufferConfig) :=
  [natural "capacity" UInt64.size .ofNat (·.capacity) (fun n c => { c with capacity := n }) noFlag,
   typed "memory_fraction" Setting.asFloat? (·.memoryFraction)
    (fun x c => { c with memoryFraction := x }) noFlag]

def ServerConfig.rules : List (FieldRule ServerConfig) :=
  [typed "bind_address" Setting.asText? (·.bindAddress) (fun x c => { c with bindAddress := x })
    noFlag,
   natural "frame_port" UInt16.size .ofNat (·.framePort) (fun n c => { c with framePort := n })
    (·.framePort),
   natural "command_port" UInt16.size .ofNat (·.commandPort)
    (fun n c => { c with commandPort := n }) (·.commandPort),
   natural "telemetry_port" UInt16.size .ofNat (·.telemetryPort)
    (fun n c => { c with telemetryPort := n }) (·.telemetryPort),
   typed "publish_rate_hz" Setting.asFloat? (·.publishRateHz)
    (fun x c => { c with publishRateHz := x }) noFlag,
   natural "poll_interval_ms" UInt64.size .ofNat (·.pollIntervalMs)
    (fun n c => { c with pollIntervalMs := n }) noFlag,
   natural "write_timeout_ms" UInt64.size .ofNat (·.writeTimeoutMs)
    (fun n c => { c with writeTimeoutMs := n }) noFlag]

/-- Whether the command line switches recording on or off. -/
def Cli.Options.logging? (o : Cli.Options) : Option Bool :=
  if o.disableLogging then some false else if o.enableLogging then some true else none

def RecordingConfig.rules : List (FieldRule RecordingConfig) :=
  [typed "root_dir" Setting.asText? (·.rootDir) (fun x c => { c with rootDir := x }) (·.logDir),
   typed "enabled" Setting.asBool? (·.enabled) (fun x c => { c with enabled := x })
    Cli.Options.logging?,
   natural "workers" UInt64.size .ofNat (·.workers) (fun n c => { c with workers := n }) noFlag,
   choice "image_format" (·.imageFormat) fun x c => { c with imageFormat := x },
   typed "timestamp_ticks_per_second" Setting.asFloat? (·.ticksPerSecond)
    (fun x c => { c with ticksPerSecond := x }) noFlag]

theorem CaptureConfig.fields_eq : CaptureConfig.fields = CaptureConfig.rules.map field := by
  simp [CaptureConfig.fields, CaptureConfig.rules]

theorem BufferConfig.fields_eq : BufferConfig.fields = BufferConfig.rules.map field := by
  simp [BufferConfig.fields, BufferConfig.rules]

theorem ServerConfig.fields_eq : ServerConfig.fields = ServerConfig.rules.map field := by
  simp [ServerConfig.fields, ServerConfig.rules]

theorem RecordingConfig.fields_eq : RecordingConfig.fields = RecordingConfig.rules.map field := by
  simp [RecordingConfig.fields, RecordingConfig.rules]

/-! ## Setting -/

namespace FieldRule

variable {σ : Type}

/-- Neither of two fields is changed by writing the other one. -/
def Apart (r q : FieldRule σ) : Prop :=
  (∀ a s, r.get (q.write a s) = r.get s) ∧ ∀ a s, q.get (r.write a s) = q.get s

/-- Each field holds what is written to it, and no other field does. -/
structure Independent (rules : List (FieldRule σ)) : Prop where
  own : ∀ r ∈ rules, ∀ a s, r.get (r.write a s) = a
  apart : rules.Pairwise Apart

/-- Sections of independent fields that leave each other alone. -/
theorem Independent.flatten {sections : List (List (FieldRule σ))}
    (hown : ∀ rules ∈ sections, Independent rules)
    (hapart : sections.Pairwise fun rules others => ∀ r ∈ rules, ∀ q ∈ others, r.Apart q) :
    Independent sections.flatten := by
  constructor
  · intro r hr
    rcases List.mem_flatten.mp hr with ⟨rules, hrules, hmem⟩
    exact (hown rules hrules).own r hmem
  · exact List.pairwise_flatten.mpr ⟨fun rules hrules => (hown rules hrules).apart, hapart⟩

/-- A field and the value that is given for it, if there is one. -/
abbrev Given (σ : Type) := FieldRule σ × Option Setting

/-- A value is given that cannot be read. -/
def Unread (p : Given σ) : Prop := ∃ v, p.2 = some v ∧ p.1.convert v = none

/-- Sets the fields for which a value is given. -/
def setAll : List (Given σ) → σ → Except LoadError σ
  | [], s => .ok s
  | (_, none) :: rest, s => setAll rest s
  | (r, some v) :: rest, s => (r.field.set v s).bind fun s => setAll rest s

theorem setNamed_eq (entries : List (String × Setting)) (rules : List (FieldRule σ)) (s : σ) :
    setNamed entries (rules.map field) s =
      setAll (rules.map fun r => (r, entries.lookup r.name)) s := by
  induction rules generalizing s with
  | nil => rfl
  | cons r rest ih =>
    simp only [List.map_cons, setNamed]
    cases hlookup : entries.lookup r.name with
    | none => simpa [field, hlookup, setAll] using ih s
    | some v =>
      simp only [setAll]
      have hname : entries.lookup r.field.name = some v := hlookup
      simp only [hname]
      cases r.field.set v s with
      | error e => rfl
      | ok s' => exact ih s'

theorem setAll_none (rules : List (FieldRule σ)) (s : σ) :
    setAll (rules.map fun r => (r, none)) s = .ok s := by
  induction rules with
  | nil => rfl
  | cons r rest ih => exact ih

theorem setAll_append (given later : List (Given σ)) (s : σ) :
    setAll (given ++ later) s = (setAll given s).bind fun s => setAll later s := by
  induction given generalizing s with
  | nil => rfl
  | cons p rest ih =>
    rcases p with ⟨r, v⟩
    cases v with
    | none => exact ih s
    | some v =>
      simp only [List.cons_append, setAll]
      cases r.field.set v s with
      | error e => rfl
      | ok s' => exact ih s'

/-- A value that cannot be read makes setting the fields fail. -/
theorem setAll_error {given : List (Given σ)} (h : ∃ p ∈ given, Unread p) (s : σ) :
    ∃ e, setAll given s = .error e := by
  induction given generalizing s with
  | nil => simp at h
  | cons p rest ih =>
    rcases p with ⟨r, v⟩
    cases v with
    | none =>
      have hrest : ∃ p ∈ rest, Unread p := by
        simpa [Unread] using h
      exact ih hrest s
    | some v =>
      cases hread : r.convert v with
      | none => exact ⟨r.error, by simp [setAll, field, hread, Except.bind]⟩
      | some a =>
        have hrest : ∃ p ∈ rest, Unread p := by
          simpa [Unread, hread] using h
        rcases ih hrest (r.write a s) with ⟨e, he⟩
        exact ⟨e, by simpa [setAll, field, hread, Except.bind] using he⟩

/-- If every value can be read, each field gets its own, fields without a value stay, and
so do all other fields. -/
theorem setAll_ok {given : List (Given σ)} (hind : Independent (given.map Prod.fst))
    (hread : ∀ p ∈ given, ¬ Unread p) (s : σ) :
    ∃ s', setAll given s = .ok s' ∧
      (∀ p ∈ given, p.1.get s' = (p.2.bind p.1.convert).getD (p.1.get s)) ∧
      ∀ q : FieldRule σ, (∀ p ∈ given, q.Apart p.1) → q.get s' = q.get s := by
  induction given generalizing s with
  | nil => exact ⟨s, rfl, by simp, fun q _ => rfl⟩
  | cons p rest ih =>
    rcases p with ⟨r, v⟩
    have hown : ∀ a s, r.get (r.write a s) = a := hind.own r List.mem_cons_self
    rcases List.pairwise_cons.mp hind.apart with ⟨hfirst, hapart⟩
    have hfirst' : ∀ p ∈ rest, r.Apart p.1 :=
      fun p hp => hfirst p.1 (List.mem_map_of_mem hp)
    have hrest : Independent (rest.map Prod.fst) := by
      refine ⟨?_, hapart⟩
      intro q hq
      exact hind.own q (List.mem_cons_of_mem _ hq)
    have ih := ih hrest fun p hp => hread p (List.mem_cons_of_mem _ hp)
    cases v with
    | none =>
      rcases ih s with ⟨s', hset, hgot, hkept⟩
      refine ⟨s', hset, ?_, ?_⟩
      · intro p hp
        rcases List.mem_cons.mp hp with rfl | hp
        · exact hkept r hfirst'
        · exact hgot p hp
      · intro q hq
        exact hkept q fun p hp => hq p (List.mem_cons_of_mem _ hp)
    | some v =>
      cases hvalue : r.convert v with
      | none => exact absurd ⟨v, rfl, hvalue⟩ (hread (r, some v) List.mem_cons_self)
      | some a =>
        rcases ih (r.write a s) with ⟨s', hset, hgot, hkept⟩
        refine ⟨s', by simpa [setAll, field, hvalue, Except.bind] using hset, ?_, ?_⟩
        · intro p hp
          rcases List.mem_cons.mp hp with rfl | hp
          · rw [hkept r hfirst', hown]
            simp [hvalue]
          · rw [hgot p hp, (hfirst' p hp).2]
        · intro q hq
          rw [hkept q fun p hp => hq p (List.mem_cons_of_mem _ hp)]
          exact (hq _ List.mem_cons_self).1 a s

end FieldRule

/-! Within a section no field is changed by writing another one, and the fields are all
that there is. -/

theorem CaptureConfig.independent : Independent CaptureConfig.rules := by
  constructor
  · simp [CaptureConfig.rules, natural, typed, int32, choice]
  · simp [CaptureConfig.rules, natural, typed, int32, choice, Apart]

theorem CaptureConfig.eq_of_rules {c c' : CaptureConfig} (h : ∀ r ∈ rules, r.get c = r.get c') :
    c = c' := by
  simp [rules, natural, typed, int32, choice] at h
  rcases c with ⟨⟩
  rcases c' with ⟨⟩
  simp_all

theorem BufferConfig.independent : Independent BufferConfig.rules := by
  constructor
  · simp [BufferConfig.rules, natural, typed]
  · simp [BufferConfig.rules, natural, typed, Apart]

theorem BufferConfig.eq_of_rules {c c' : BufferConfig} (h : ∀ r ∈ rules, r.get c = r.get c') :
    c = c' := by
  simp [rules, natural, typed] at h
  rcases c with ⟨⟩
  rcases c' with ⟨⟩
  simp_all

theorem ServerConfig.independent : Independent ServerConfig.rules := by
  constructor
  · simp [ServerConfig.rules, natural, typed]
  · simp [ServerConfig.rules, natural, typed, Apart]

theorem ServerConfig.eq_of_rules {c c' : ServerConfig} (h : ∀ r ∈ rules, r.get c = r.get c') :
    c = c' := by
  simp [rules, natural, typed] at h
  rcases c with ⟨⟩
  rcases c' with ⟨⟩
  simp_all

theorem RecordingConfig.independent : Independent RecordingConfig.rules := by
  constructor
  · simp [RecordingConfig.rules, natural, typed, choice]
  · simp [RecordingConfig.rules, natural, typed, choice, Apart]

theorem RecordingConfig.eq_of_rules {c c' : RecordingConfig} (h : ∀ r ∈ rules, r.get c = r.get c') :
    c = c' := by
  simp [rules, natural, typed, choice] at h
  rcases c with ⟨⟩
  rcases c' with ⟨⟩
  simp_all

/-! ## The configuration -/

/-- A section as a part of the configuration. -/
structure ConfigPart (σ : Type) where
  name : String
  get : Config → σ
  set : σ → Config → Config
  get_set : ∀ s c, get (set s c) = s
  set_get : ∀ c, set (get c) c = c
  set_set : ∀ s s' c, set s (set s' c) = set s c

/-- A field of the configuration, with the name of its section. -/
structure ConfigRule extends FieldRule Config where
  sec : String

namespace ConfigPart

variable {σ : Type} (part : ConfigPart σ)

/-- A field of the section as one of the configuration. -/
def rule (r : FieldRule σ) : FieldRule Config where
  name := r.name
  Value := r.Value
  convert := r.convert
  get c := r.get (part.get c)
  write a c := part.set (r.write a (part.get c)) c
  error := r.error
  flag := r.flag

def rules (rules : List (FieldRule σ)) : List ConfigRule :=
  rules.map fun r => ⟨part.rule r, part.name⟩

/-- The section as a field of the configuration. -/
def field (rules : List (FieldRule σ)) : ConfigField Config :=
  sectionField part.name (rules.map FieldRule.field) part.get part.set

/-- Setting the fields of a section sets the same fields of the configuration. -/
theorem setAll_rule (given : List (Given σ)) (c : Config) :
    (setAll given (part.get c)).map (part.set · c) =
      setAll (given.map fun p => (part.rule p.1, p.2)) c := by
  induction given generalizing c with
  | nil => simp [setAll, Except.map, part.set_get]
  | cons p rest ih =>
    rcases p with ⟨r, v⟩
    cases v with
    | none => exact ih c
    | some v =>
      cases hvalue : r.convert v with
      | none => simp [setAll, FieldRule.field, rule, hvalue, Except.bind, Except.map]
      | some a =>
        have hrest := ih (part.set (r.write a (part.get c)) c)
        rw [part.get_set] at hrest
        simp only [part.set_set] at hrest
        simpa [setAll, FieldRule.field, rule, hvalue, Except.bind] using hrest

variable {part} {τ : Type} {other : ConfigPart τ}

/-- Independent fields of a section are independent as fields of the configuration. -/
theorem independent {rules : List (FieldRule σ)} (h : Independent rules) :
    Independent (rules.map part.rule) := by
  constructor
  · intro r hr a c
    rcases List.mem_map.mp hr with ⟨q, hq, rfl⟩
    simp only [rule, part.get_set]
    exact h.own q hq a (part.get c)
  · rw [List.pairwise_map]
    refine h.apart.imp ?_
    intro r q hapart
    constructor
    · intro a c
      simp only [rule, part.get_set]
      exact hapart.1 a (part.get c)
    · intro a c
      simp only [rule, part.get_set]
      exact hapart.2 a (part.get c)

/-- Neither of two sections is changed by setting the other one. -/
def Apart (part : ConfigPart σ) (other : ConfigPart τ) : Prop :=
  (∀ t c, part.get (other.set t c) = part.get c) ∧ ∀ s c, other.get (part.set s c) = other.get c

theorem Apart.fields (h : part.Apart other) (rules : List (FieldRule σ))
    (others : List (FieldRule τ)) :
    ∀ r ∈ rules.map part.rule, ∀ q ∈ others.map other.rule, r.Apart q := by
  intro r hr q hq
  rcases List.mem_map.mp hr with ⟨r', -, rfl⟩
  rcases List.mem_map.mp hq with ⟨q', -, rfl⟩
  constructor
  · intro a c
    simp only [rule, h.1]
  · intro a c
    simp only [rule, h.2]
end ConfigPart

namespace Config

def capturePart : ConfigPart CaptureConfig where
  name := "capture"
  get := capture
  set s c := { c with capture := s }
  get_set _ _ := rfl
  set_get _ := rfl
  set_set _ _ _ := rfl

def bufferPart : ConfigPart BufferConfig where
  name := "buffer"
  get := buffer
  set s c := { c with buffer := s }
  get_set _ _ := rfl
  set_get _ := rfl
  set_set _ _ _ := rfl

def serverPart : ConfigPart ServerConfig where
  name := "server"
  get := server
  set s c := { c with server := s }
  get_set _ _ := rfl
  set_get _ := rfl
  set_set _ _ _ := rfl

def recordingPart : ConfigPart RecordingConfig where
  name := "recording"
  get := recording
  set s c := { c with recording := s }
  get_set _ _ := rfl
  set_get _ := rfl
  set_set _ _ _ := rfl

/-- The fields of all sections. -/
def rules : List ConfigRule :=
  capturePart.rules CaptureConfig.rules ++ bufferPart.rules BufferConfig.rules ++
    serverPart.rules ServerConfig.rules ++ recordingPart.rules RecordingConfig.rules

def sectionNames : List String := ["capture", "buffer", "server", "recording"]

theorem sections_eq : sections =
    [capturePart.field CaptureConfig.rules, bufferPart.field BufferConfig.rules,
      serverPart.field ServerConfig.rules, recordingPart.field RecordingConfig.rules] := by
  simp only [ConfigPart.field, ← CaptureConfig.fields_eq, ← BufferConfig.fields_eq,
    ← ServerConfig.fields_eq, ← RecordingConfig.fields_eq]
  rfl

/-- Every field stands at a place of its own. -/
theorem rules_independent : Independent (rules.map ConfigRule.toFieldRule) := by
  have hrules : rules.map ConfigRule.toFieldRule =
      [CaptureConfig.rules.map capturePart.rule, BufferConfig.rules.map bufferPart.rule,
        ServerConfig.rules.map serverPart.rule,
        RecordingConfig.rules.map recordingPart.rule].flatten := by
    simp [rules, ConfigPart.rules, Function.comp_def]
  rw [hrules]
  apply Independent.flatten
  · simp [ConfigPart.independent, CaptureConfig.independent, BufferConfig.independent,
      ServerConfig.independent, RecordingConfig.independent]
  · -- setting one section changes no other one
    simp only [List.pairwise_cons, List.forall_mem_cons, List.not_mem_nil, false_imp_iff,
      implies_true, and_true, List.Pairwise.nil]
    refine ⟨⟨?_, ?_, ?_⟩, ⟨?_, ?_⟩, ?_⟩ <;>
      exact ConfigPart.Apart.fields ⟨fun _ _ => rfl, fun _ _ => rfl⟩ _ _

/-- What holds of the fields of each section holds of all fields. -/
theorem forall_mem_rules {P : ConfigRule → Prop} :
    (∀ p ∈ rules, P p) ↔
      (∀ r ∈ CaptureConfig.rules, P ⟨capturePart.rule r, capturePart.name⟩) ∧
        (∀ r ∈ BufferConfig.rules, P ⟨bufferPart.rule r, bufferPart.name⟩) ∧
        (∀ r ∈ ServerConfig.rules, P ⟨serverPart.rule r, serverPart.name⟩) ∧
        ∀ r ∈ RecordingConfig.rules, P ⟨recordingPart.rule r, recordingPart.name⟩ := by
  simp only [rules, ConfigPart.rules, List.forall_mem_append, List.forall_mem_map, and_assoc]

/-- A configuration is what its fields are. -/
theorem eq_of_rules {c c' : Config} (h : ∀ p ∈ rules, p.get c = p.get c') : c = c' := by
  rcases forall_mem_rules.mp h with ⟨hcapture, hbuffer, hserver, hrecording⟩
  have hparts : c.capture = c'.capture ∧ c.buffer = c'.buffer ∧ c.server = c'.server ∧
      c.recording = c'.recording :=
    ⟨CaptureConfig.eq_of_rules hcapture, BufferConfig.eq_of_rules hbuffer,
      ServerConfig.eq_of_rules hserver, RecordingConfig.eq_of_rules hrecording⟩
  rcases c with ⟨⟩
  rcases c' with ⟨⟩
  simp_all

/-- The command line sets the fields for which it has a value and no other ones. -/
theorem get_apply (o : Cli.Options) (c : Config) :
    ∀ p ∈ rules, p.get (o.apply c) = (p.flag o).getD (p.get c) := by
  have hlogging : (!o.disableLogging && (o.enableLogging || c.recording.enabled)) =
      o.logging?.getD c.recording.enabled := by
    unfold Cli.Options.logging?
    cases o.disableLogging <;> cases o.enableLogging <;> rfl
  rw [forall_mem_rules]
  refine ⟨?_, ?_, ?_, ?_⟩
  · simp [CaptureConfig.rules, natural, typed, int32, choice, ConfigPart.rule, capturePart,
      noFlag, Cli.Options.apply]
  · simp [BufferConfig.rules, natural, typed, ConfigPart.rule, bufferPart, noFlag,
      Cli.Options.apply]
  · simp [ServerConfig.rules, natural, typed, ConfigPart.rule, serverPart, noFlag,
      Cli.Options.apply]
  · simp [RecordingConfig.rules, natural, typed, choice, ConfigPart.rule, recordingPart, noFlag,
      Cli.Options.apply, hlogging]

end Config

end FrameServer
