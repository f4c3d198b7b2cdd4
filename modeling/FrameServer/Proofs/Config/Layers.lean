import FrameServer.Cli.Program
import FrameServer.Proofs.Config.Fields
import FrameServer.Proofs.Config.Merging

/-!
# FrameServer.Proofs.Config.Layers — each field comes from the uppermost layer that names it

A configuration is made of defaults, a file, variables of the environment and options of
the command line. Each field is as the uppermost of them that names it says. A value that
a higher layer overrides is never read, but the value that counts between the file and the
environment must be readable, whatever the command line says.

1. **Sections** of a tree that are groups are read field by field.
2. **The environment** names one field with each variable.
3. **Layers**: `configured_by_layers` for every file, environment and command line.
-/

namespace FrameServer

open FieldRule

/-! ## Sections -/

namespace Config

variable {σ : Type}

/-- The values of a tree for all fields. -/
def given (s : Setting) (rules : List ConfigRule) : List (Given Config) :=
  rules.map fun p => (p.toFieldRule, s.field? p.sec p.name)

/-- Reading a section that is a group, or is not there, sets its fields one by one. -/
theorem setNamed_part (part : ConfigPart σ) (rules : List (FieldRule σ)) {s : Setting}
    (hs : ∀ t, s.entries.lookup part.name = some t → t.isGroup = true)
    (rest : List (ConfigField Config)) (c : Config) :
    setNamed s.entries (part.field rules :: rest) c =
      (setAll (given s (part.rules rules)) c).bind fun c => setNamed s.entries rest c := by
  have hgiven : given s (part.rules rules) =
      (rules.map fun r => (r, s.field? part.name r.name)).map fun p => (part.rule p.1, p.2) := by
    simp [given, ConfigPart.rules, ConfigPart.rule, Function.comp_def]
  rw [hgiven, ← part.setAll_rule]
  have hname : (part.field rules).name = part.name := rfl
  simp only [setNamed, hname]
  cases hpart : s.entries.lookup part.name with
  | none =>
    have hnone : ∀ key, s.field? part.name key = none := by simp [Setting.field?, hpart]
    simp only [hnone, setAll_none, Except.map, part.set_get]
    rfl
  | some t =>
    cases t with
    | group entries =>
      have hfield : ∀ key, s.field? part.name key = entries.lookup key := by
        intro key
        rw [Setting.field?, hpart]
        rfl
      have hset : (part.field rules).set (.group entries) c =
          (setNamed entries (rules.map FieldRule.field) (part.get c)).map (part.set · c) := rfl
      simp only [hset, hfield, ← setNamed_eq]
      cases setNamed entries (rules.map FieldRule.field) (part.get c) with
      | error e => rfl
      | ok s' => rfl
    | _ => cases hs _ hpart

/-- A configuration is read field by field from a tree with groups for sections. -/
theorem ofSetting_eq {s : Setting} (hs : s.Sectioned sectionNames) :
    ofSetting s = setAll (given s rules) {} := by
  have hgiven : given s rules =
      given s (capturePart.rules CaptureConfig.rules) ++
        (given s (bufferPart.rules BufferConfig.rules) ++
          (given s (serverPart.rules ServerConfig.rules) ++
            given s (recordingPart.rules RecordingConfig.rules))) := by
    simp [given, rules]
  have hlast : ∀ r : Except LoadError Config,
      (r.bind fun c => setNamed s.entries [] c) = r := by
    intro r
    cases r <;> rfl
  unfold ofSetting
  rw [sections_eq, hgiven]
  simp only [setNamed_part capturePart _ (hs _ (by decide)),
    setNamed_part bufferPart _ (hs _ (by decide)), setNamed_part serverPart _ (hs _ (by decide)),
    setNamed_part recordingPart _ (hs _ (by decide)), hlast, setAll_append]

end Config

/-! ## The environment -/

/-- The name of the variable of a field, in lower case. -/
def ConfigRule.variableName (p : ConfigRule) : String :=
  Config.variableStem ++ p.sec ++ "__" ++ p.name

namespace Config

/-- What the environment says about a field. -/
def environmentValue? (environment : List (String × String)) (p : ConfigRule) : Option Setting :=
  ((environment.map fun v => (Setting.foldName v.1, v.2)).lookup p.variableName).map variableValue

/-- Every variable that the program looks at is that of a field, and no field has two. -/
structure Variables (environment : List (String × String)) : Prop where
  known : ∀ v ∈ environment,
    variableKey? v.1 = none ∨ ∃ p ∈ rules, Setting.foldName v.1 = p.variableName
  once : environment.Pairwise fun v w =>
    Setting.foldName v.1 = Setting.foldName w.1 → variableKey? v.1 = none

/-- The key path that a name in lower case stands for. -/
def foldedKey? (folded : String) : Option String :=
  if variableStem.toList.isPrefixOf folded.toList then
    some (String.ofList (dotted (folded.toList.drop variableStem.length)))
  else none

theorem variableKey?_eq (name : String) :
    variableKey? name = foldedKey? (Setting.foldName name) := rfl

/-- The variable of a field leads to this field. -/
theorem keyPath_variableName : ∀ p ∈ rules,
    (foldedKey? p.variableName).map Setting.keyPath = some (p.sec, [.child p.name]) := by
  decide +kernel

/-- The names of fields are in lower case. -/
theorem foldName_name {p : ConfigRule} (hp : p ∈ rules) : Setting.foldName p.name = p.name := by
  have hchars : ∀ p ∈ rules,
      p.name.toList.map (fun c => if c = '\u212a' then 'k' else c.toLower) = p.name.toList := by
    decide +kernel
  rw [← String.toList_inj, Setting.foldName, String.toList_map]
  exact hchars p hp

theorem isGroup_variableValue (text : String) : (variableValue text).isGroup = false := by
  unfold variableValue
  split
  · rfl
  · split
    · rfl
    · split
      · rfl
      · split <;> rfl

/-- No two fields have one variable. -/
theorem sec_name_eq_of_variableName_eq {p q : ConfigRule} (hp : p ∈ rules) (hq : q ∈ rules)
    (hsame : p.variableName = q.variableName) : p.sec = q.sec ∧ p.name = q.name := by
  have hpath := keyPath_variableName p hp
  rw [hsame, keyPath_variableName q hq] at hpath
  simpa [eq_comm] using hpath

theorem foldedKey?_variableName {p : ConfigRule} (hp : p ∈ rules) :
    ∃ key, foldedKey? p.variableName = some key ∧
      Setting.keyPath key = (p.sec, [.child p.name]) := by
  simpa using Option.map_eq_some_iff.mp (keyPath_variableName p hp)

theorem environmentValue?_cons (v : String × String) (later : List (String × String))
    (p : ConfigRule) : environmentValue? (v :: later) p =
      if p.variableName = Setting.foldName v.1 then some (variableValue v.2)
      else environmentValue? later p := by
  unfold environmentValue?
  rw [List.map_cons, Setting.lookup_cons]
  split <;> rfl

namespace Variables

variable {environment : List (String × String)}

theorem later {v : String × String} (h : Variables (v :: environment)) : Variables environment :=
  ⟨fun w hw => h.known w (List.mem_cons_of_mem v hw), (List.pairwise_cons.mp h.once).2⟩

/-- A variable that the program looks at leads to the field whose variable it is. -/
theorem path {v : String × String} {key : String} (h : Variables environment)
    (hv : v ∈ environment) (hkey : variableKey? v.1 = some key) :
    ∃ q ∈ rules, Setting.foldName v.1 = q.variableName ∧
      Setting.keyPath key = (q.sec, [.child q.name]) := by
  rcases h.known v hv with hnone | ⟨q, hq, hname⟩
  · rw [hkey] at hnone
    cases hnone
  · rcases foldedKey?_variableName hq with ⟨key', hfolded, hpath⟩
    rw [variableKey?_eq, hname, hfolded] at hkey
    rw [Option.some.inj hkey] at hpath
    exact ⟨q, hq, hname, hpath⟩

/-- The environment overrides the fields that it names and changes no other ones. -/
theorem field?_overlay (h : Variables environment) {p : ConfigRule} (hp : p ∈ rules)
    (s : Setting) :
    (s.overlay (environmentLayer environment)).field? p.sec p.name =
      (environmentValue? environment p).or (s.field? p.sec p.name) := by
  induction environment generalizing s with
  | nil => simp [environmentLayer, Setting.overlay, environmentValue?]
  | cons v rest ih =>
    rw [environmentValue?_cons]
    cases hkey : variableKey? v.1 with
    | none =>
      -- a variable that nobody looks at is not that of a field
      have hother : ¬ p.variableName = Setting.foldName v.1 := by
        intro hname
        rcases foldedKey?_variableName hp with ⟨key, hfolded, -⟩
        rw [variableKey?_eq, ← hname, hfolded] at hkey
        cases hkey
      have hlayer : environmentLayer (v :: rest) = environmentLayer rest := by
        simp [environmentLayer, hkey]
      rw [if_neg hother, hlayer]
      exact ih h.later s
    | some key =>
      have hlayer : environmentLayer (v :: rest) =
          (key, variableValue v.2) :: environmentLayer rest := by
        simp [environmentLayer, hkey]
      rcases h.path List.mem_cons_self hkey with ⟨q, hq, hname, hpath⟩
      rw [hlayer, Setting.overlay_cons, ih h.later, hpath,
        Setting.field?_assign_field (isGroup_variableValue v.2), foldName_name hq, hname]
      by_cases hfield : p.variableName = q.variableName
      · -- no later variable is that of this field
        have hnone : environmentValue? rest p = none := by
          rw [environmentValue?, Option.map_eq_none_iff, List.lookup_eq_none_iff]
          intro w hw
          rcases List.mem_map.mp hw with ⟨old, hold, rfl⟩
          rw [bne_iff_ne]
          intro hlater
          have hunread := (List.pairwise_cons.mp h.once).1 old hold
            (hname.trans (hfield.symm.trans hlater))
          rw [hkey] at hunread
          cases hunread
        rw [if_pos (sec_name_eq_of_variableName_eq hp hq hfield), if_pos hfield, hnone]
        rfl
      · have hother : ¬ (p.sec = q.sec ∧ p.name = q.name) := by
          rintro ⟨hsec, hsame⟩
          apply hfield
          rw [ConfigRule.variableName, hsec, hsame]
          rfl
        rw [if_neg hother, if_neg hfield]

/-- Variables only change fields, so sections stay groups. -/
theorem sectioned (h : Variables environment) {s : Setting} (hs : s.Sectioned sectionNames) :
    (s.overlay (environmentLayer environment)).Sectioned sectionNames := by
  apply Setting.Sectioned.overlay _ hs
  intro e he
  rcases List.mem_filterMap.mp he with ⟨v, hv, hkey⟩
  rcases Option.map_eq_some_iff.mp hkey with ⟨key, hname, rfl⟩
  rcases h.path hv hname with ⟨q, hq, -, hpath⟩
  simp [Setting.tabular, hpath]

end Variables

/-! ## Layers -/

/-- The settings of the file, if one is given. -/
def source : Option (String × Option String) → Except LoadError (List (String × Setting))
  | none => .ok []
  | some (path, text) => fileLayer path text

/-- The file is one whose sections are tables and in which no two names are the same in
lower case. A name may be a path into a section; it then counts as the name of what it
leads to. -/
structure Tables (file : List (String × Setting)) : Prop where
  tabular : ∀ e ∈ file, Setting.tabular sectionNames e = true
  once : ∀ p ∈ rules, file.Pairwise fun e e' =>
    Setting.named? p.sec p.name e = none ∨ Setting.named? p.sec p.name e' = none

/-- If no name is a path, it is enough to look at the names of the file and at those in
each section. -/
theorem Tables.of_plain {file : List (String × Setting)}
    (hplain : ∀ e ∈ file, Setting.keyPath e.1 = (e.1, []))
    (hgroups : ∀ e ∈ file, Setting.foldName e.1 ∈ sectionNames →
      e.2.isGroup = true ∧ (e.2.entries.map fun e => Setting.foldName e.1).Nodup)
    (hdistinct : (file.map fun e => Setting.foldName e.1).Nodup) : Tables file := by
  constructor
  · intro e he
    by_cases hsec : Setting.foldName e.1 ∈ sectionNames
    · simp [Setting.tabular, hplain e he, hgroups e he hsec]
    · simp [Setting.tabular, hplain e he, hsec]
  · intro p _
    have hnamed : ∀ e ∈ file, Setting.foldName e.1 ≠ p.sec →
        Setting.named? p.sec p.name e = none := by
      intro e he hother
      simp [Setting.named?, hplain e he, hother]
    rw [List.Nodup, List.pairwise_map] at hdistinct
    refine hdistinct.imp_of_mem ?_
    intro e e' he he' hne
    by_cases hsec : Setting.foldName e.1 = p.sec
    · exact .inr (hnamed e' he' fun h => hne (hsec.trans h.symm))
    · exact .inl (hnamed e he hsec)

/-- What the environment says about a field, or else the file. -/
def winner (environment : List (String × String)) (file : List (String × Setting))
    (p : ConfigRule) : Option Setting :=
  (environmentValue? environment p).or (Setting.valueIn file p.sec p.name)

variable {environment : List (String × String)} {file : List (String × Setting)}

theorem mem_sectionNames : ∀ p ∈ rules, p.sec ∈ sectionNames := by decide +kernel

/-- Loading sets each field for which there is a winner, and reads nothing else. -/
theorem load_eq {chosen : Option (String × Option String)} (hsource : source chosen = .ok file)
    (hfile : Tables file) (hvariables : Variables environment) :
    load chosen environment =
      setAll (rules.map fun p => (p.toFieldRule, winner environment file p)) {} := by
  have hload : load chosen environment = ofLayers [file, environmentLayer environment] := by
    rcases chosen with _ | ⟨path, text⟩
    · rw [← Except.ok.inj hsource]
      rfl
    · show (source (some (path, text))).bind _ = _
      rw [hsource]
      rfl
  have hnothing : (Setting.group []).Sectioned sectionNames := by
    intro sec hsec part hpart
    cases hpart
  have hbelow : ((Setting.group []).overlay file).Sectioned sectionNames :=
    hnothing.overlay hfile.tabular
  have hfield : ∀ p ∈ rules, (((Setting.group []).overlay file).overlay
      (environmentLayer environment)).field? p.sec p.name = winner environment file p := by
    intro p hp
    rw [hvariables.field?_overlay hp,
      Setting.field?_overlay hfile.tabular (mem_sectionNames p hp) (hfile.once p hp) _ (.inr rfl)]
    simp [winner, Setting.field?, Setting.entries]
  rw [hload]
  show ofSetting (((Setting.group []).overlay file).overlay (environmentLayer environment)) = _
  rw [ofSetting_eq (hvariables.sectioned hbelow), given]
  congr 1
  apply List.map_congr_left
  intro p hp
  rw [hfield p hp]

/-- For some field the winner cannot be read. -/
def Unreadable (environment : List (String × String)) (file : List (String × Setting)) : Prop :=
  ∃ p ∈ rules, ∃ v, winner environment file p = some v ∧ p.convert v = none

theorem load_error {chosen : Option (String × Option String)} (hsource : source chosen = .ok file)
    (hfile : Tables file) (hvariables : Variables environment)
    (hunread : Unreadable environment file) : ∃ e, load chosen environment = .error e := by
  rw [load_eq hsource hfile hvariables]
  apply setAll_error
  rcases hunread with ⟨p, hp, v, hwinner, hread⟩
  exact ⟨(p.toFieldRule, winner environment file p), List.mem_map_of_mem hp, v, hwinner, hread⟩

/-- Loading gives each field its winner or leaves its default. -/
theorem load_ok {chosen : Option (String × Option String)} (hsource : source chosen = .ok file)
    (hfile : Tables file) (hvariables : Variables environment)
    (hread : ¬ Unreadable environment file) :
    ∃ c, load chosen environment = .ok c ∧ ∀ p ∈ rules,
      p.get c = ((winner environment file p).bind p.convert).getD (p.get {}) := by
  have hind : Independent
      ((rules.map fun p => (p.toFieldRule, winner environment file p)).map Prod.fst) := by
    rw [List.map_map]
    exact rules_independent
  have hall : ∀ p ∈ rules.map fun p => (p.toFieldRule, winner environment file p), ¬ Unread p := by
    intro p hp hunread
    rcases List.mem_map.mp hp with ⟨q, hq, rfl⟩
    rcases hunread with ⟨v, hwinner, hvalue⟩
    exact hread ⟨q, hq, v, hwinner, hvalue⟩
  rcases setAll_ok hind hall {} with ⟨c, hset, hgot, -⟩
  rw [load_eq hsource hfile hvariables]
  refine ⟨c, hset, ?_⟩
  intro p hp
  exact hgot (p.toFieldRule, winner environment file p) (List.mem_map_of_mem hp)

/-- What a field is: as the command line says, else as the winner of environment and file
says, else its default. -/
def expected (environment : List (String × String)) (file : List (String × Setting))
    (o : Cli.Options) (p : ConfigRule) : p.Value :=
  (p.flag o).getD (((winner environment file p).bind p.convert).getD (p.get {}))

/-- For a file whose sections are tables, variables that are those of fields, and any
command line: loading fails exactly if for some field the winner of environment and file
cannot be read. Else each field is as the uppermost layer that names it says, whatever the
lower ones say, and the configuration that these fields make up is checked. -/
theorem configured_by_layers (world : Cli.World) (o : Cli.Options)
    (hsource : source (o.config.map fun path => (path, world.fileText path)) = .ok file)
    (hfile : Tables file) (hvariables : Variables world.environment) :
    (Unreadable world.environment file ↔ ∃ e, Cli.configure world o = .error (.load e)) ∧
      (¬ Unreadable world.environment file → ∃ c,
        (∀ p ∈ rules, p.get c = expected world.environment file o p) ∧
        (∀ c', (∀ p ∈ rules, p.get c' = expected world.environment file o p) → c' = c) ∧
        Cli.configure world o = match c.fault? with
          | some fault => .error (.invalid fault)
          | none => .ok c) := by
  have hfails : Unreadable world.environment file →
      ∃ e, Cli.configure world o = .error (.load e) := by
    intro hunread
    rcases load_error hsource hfile hvariables hunread with ⟨e, hload⟩
    exact ⟨e, by simp only [Cli.configure, hload]⟩
  have hloads : ¬ Unreadable world.environment file → ∃ c,
      (∀ p ∈ rules, p.get c = expected world.environment file o p) ∧
        Cli.configure world o = match c.fault? with
          | some fault => .error (.invalid fault)
          | none => .ok c := by
    intro hread
    rcases load_ok hsource hfile hvariables hread with ⟨c, hload, hgot⟩
    refine ⟨o.apply c, ?_, ?_⟩
    · intro p hp
      rw [get_apply o c p hp, hgot p hp]
      rfl
    · cases hfault : (o.apply c).fault? <;> simp [Cli.configure, hload, hfault]
  refine ⟨⟨hfails, ?_⟩, ?_⟩
  · rintro ⟨e, hconfigure⟩
    apply Classical.byContradiction
    intro hread
    rcases hloads hread with ⟨c, -, hchecked⟩
    rw [hchecked] at hconfigure
    split at hconfigure <;> cases hconfigure
  · intro hread
    rcases hloads hread with ⟨c, hfields, hchecked⟩
    refine ⟨c, hfields, ?_, hchecked⟩
    intro c' hfields'
    apply eq_of_rules
    intro p hp
    rw [hfields p hp, hfields' p hp]

/-- A file whose height is no number. -/
def tallText : String :=
  "[Capture]\nWIDTH = 640\nheight = \"tall\"\n[recording]\nworkers = 3\n"

/-- The settings in this file. -/
def tallFile : List (String × Setting) := (documentLayer tallText).toOption.getD []

/-- The file, and a variable for the height. -/
def tallWorld : Cli.World where
  environment := [("HOME", "/root"), ("CAMSERVER__CAPTURE__HEIGHT", "480")]
  fileText _ := some tallText
  lookUp _ := .missing
  freeMemory := none
  takenPorts := []
  wall := 0

def wideOptions : Cli.Options := { config := some "tall.toml", width := some 1280 }

/-- The command line overrides the width in the file, and the environment its height, which
is no number. -/
theorem overridden_height_never_read :
    source (wideOptions.config.map fun path => (path, tallWorld.fileText path)) = .ok tallFile ∧
      Tables tallFile ∧ Variables tallWorld.environment ∧ ∃ c : Config,
        c.capture.width = 1280 ∧ c.capture.height = 480 ∧ c.recording.workers = 3 ∧
        Cli.configure tallWorld wideOptions = match c.fault? with
          | some fault => .error (.invalid fault)
          | none => .ok c := by
  have hsource : source (wideOptions.config.map fun path => (path, tallWorld.fileText path)) =
      .ok tallFile := by
    have hending : extension "tall.toml" = "toml" := by decide +kernel
    have hwell : (documentLayer tallText).isOk = true := by decide +kernel
    show fileLayer "tall.toml" (some tallText) = .ok tallFile
    rw [fileLayer, if_pos hending, tallFile]
    cases hdocument : documentLayer tallText with
    | error e => simp [hdocument, Except.isOk, Except.toBool] at hwell
    | ok entries => rfl
  have hfile : Tables tallFile := by
    apply Tables.of_plain
    · decide +kernel
    · decide +kernel
    · decide +kernel
  have hvariables : Variables tallWorld.environment := by
    constructor
    · decide +kernel
    · decide +kernel
  have hread : ¬ Unreadable tallWorld.environment tallFile := by
    have hall : ∀ p ∈ rules, ((winner tallWorld.environment tallFile p).map fun v =>
        (p.convert v).isSome) ≠ some false := by decide +kernel
    rintro ⟨p, hp, v, hwinner, hnone⟩
    exact hall p hp (by simp [hwinner, hnone])
  rcases (configured_by_layers tallWorld wideOptions hsource hfile hvariables).2 hread with
    ⟨c, hfields, -, hchecked⟩
  have hwidth : (show UInt32 from expected tallWorld.environment tallFile wideOptions rules[2]) =
      1280 := by decide +kernel
  have hheight : (show UInt32 from expected tallWorld.environment tallFile wideOptions rules[3]) =
      480 := by decide +kernel
  have hworkers : (show UInt64 from expected tallWorld.environment tallFile wideOptions rules[21]) =
      3 := by decide +kernel
  refine ⟨hsource, hfile, hvariables, c, ?_, ?_, ?_, hchecked⟩
  · exact (hfields rules[2] (List.getElem_mem _)).trans hwidth
  · exact (hfields rules[3] (List.getElem_mem _)).trans hheight
  · exact (hfields rules[21] (List.getElem_mem _)).trans hworkers

end Config

end FrameServer
