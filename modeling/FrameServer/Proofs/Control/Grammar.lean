import FrameServer.Control.Command
import FrameServer.Proofs.Decimal.Numeral
import FrameServer.Proofs.Text.Blank

/-!
# FrameServer.Proofs.Control.Grammar — the texts that are commands

The grammar of commands says for each answer which texts get it. Reading a command
follows the grammar, and since no keyword begins another one, it does so in
whatever order the keywords are tried.

1. **Values** of the commands that set something.
2. **Keywords**: what the first of some keywords makes of a text.
3. **The vocabulary**
4. **The grammar**
-/

namespace FrameServer.Command

/-! ## Values -/

/-- The text is an integer of 32 bits with white space around it. -/
structure Value (text : List Char) (z : Int) : Prop where
  numeral : ∃ core, Text.Trimmed core text ∧ Decimal.SignedNumeral core z
  least : -0x80000000 ≤ z
  greatest : z < 0x80000000

theorem value?_eq_some_iff {text : List Char} {n : Int32} :
    value? text = some n ↔ Value text n.toInt := by
  rw [value?, Option.bind_eq_some_iff]
  constructor
  · rintro ⟨z, hz, hn⟩
    rw [toInt32?_eq_some_iff] at hn
    subst hn
    refine ⟨⟨Text.trim text, Text.trimmed_trim text, ?_⟩, n.le_toInt, n.toInt_lt⟩
    exact Decimal.integer?_eq_some_iff.mp hz
  · rintro ⟨⟨core, hcore, hnumeral⟩, -, -⟩
    refine ⟨n.toInt, ?_, toInt32?_toInt n⟩
    rw [hcore.trim_eq, hnumeral.integer?_eq]

theorem value?_eq_none_iff {text : List Char} : value? text = none ↔ ¬ ∃ z, Value text z := by
  rw [Option.eq_none_iff_forall_ne_some]
  constructor
  · rintro hnone ⟨z, hz⟩
    -- a value within the bounds is that of a word
    obtain ⟨n, rfl⟩ := exists_toInt_eq_iff.mpr ⟨hz.least, hz.greatest⟩
    exact hnone n (value?_eq_some_iff.mpr hz)
  · intro hnone n hn
    exact hnone ⟨n.toInt, value?_eq_some_iff.mp hn⟩

/-! ## Keywords -/

/-- No keyword begins another one. -/
def Separate (words : List (String × Form)) : Prop :=
  ∀ u ∈ words, ∀ v ∈ words, u.1.toList <+: v.1.toList → u = v

section Separate

variable {words : List (String × Form)} {text : List Char}

/-- A text begins with one of the keywords at most. -/
theorem Separate.eq_of_prefix (hwords : Separate words) {u v : String × Form} (hu : u ∈ words)
    (hv : v ∈ words) (hu' : u.1.toList <+: text) (hv' : v.1.toList <+: text) : u = v := by
  rcases List.prefix_or_prefix_of_prefix hu' hv' with h | h
  · exact hwords u hu v hv h
  · exact (hwords v hv u hu h).symm

/-- A text that begins with none of the keywords is not known. -/
theorem parseAmong_of_no_prefix (hnone : ∀ u ∈ words, ¬ u.1.toList <+: text) :
    parseAmong words text = .error .unknown := by
  induction words with
  | nil => rfl
  | cons u others ih =>
    have hu : u.1.toList.isPrefixOf text = false := by
      rw [Bool.eq_false_iff, ne_eq, List.isPrefixOf_iff_prefix]
      exact hnone u List.mem_cons_self
    rw [parseAmong, hu]
    exact ih fun v hv => hnone v (List.mem_cons_of_mem u hv)

/-- A text that begins with a keyword is completed by what that keyword announces, as
no other keyword can come first. -/
theorem Separate.parseAmong_append (hwords : Separate words) {u : String × Form}
    (hu : u ∈ words) (rest : List Char) :
    parseAmong words (u.1.toList ++ rest) = u.2.complete rest := by
  -- the keywords that are tried first are among all of them
  suffices h : ∀ front back, words = front ++ back → u ∈ back →
      parseAmong back (u.1.toList ++ rest) = u.2.complete rest from h [] words rfl hu
  intro front back
  induction back generalizing front with
  | nil => simp
  | cons v others ih =>
    intro hsplit hmem
    by_cases hv : v.1.toList.isPrefixOf (u.1.toList ++ rest) = true
    · have hvu : v = u := by
        refine hwords.eq_of_prefix ?_ hu (List.isPrefixOf_iff_prefix.mp hv) (List.prefix_append _ _)
        simp [hsplit]
      rw [parseAmong, if_pos hv, hvu, List.drop_left]
    · have hother : u ∈ others := by
        rcases List.mem_cons.mp hmem with rfl | hother
        · exact absurd (List.isPrefixOf_iff_prefix.mpr (List.prefix_append _ _)) hv
        · exact hother
      rw [parseAmong, if_neg hv]
      exact ih (front ++ [v]) (by simp [hsplit]) hother

/-- Reading is completing the keyword that the text begins with, and fails if there is
none. -/
theorem Separate.parseAmong_eq_iff (hwords : Separate words)
    {result : Except CommandError Command} :
    parseAmong words text = result ↔
      (∃ u ∈ words, ∃ rest, text = u.1.toList ++ rest ∧ u.2.complete rest = result) ∨
        (∀ u ∈ words, ¬ u.1.toList <+: text) ∧ result = .error .unknown := by
  constructor
  · rintro rfl
    by_cases hsome : ∃ u ∈ words, u.1.toList <+: text
    · obtain ⟨u, hu, rest, rfl⟩ := hsome
      exact .inl ⟨u, hu, rest, rfl, (hwords.parseAmong_append hu rest).symm⟩
    · have hnone : ∀ u ∈ words, ¬ u.1.toList <+: text := fun u hu h => hsome ⟨u, hu, h⟩
      exact .inr ⟨hnone, parseAmong_of_no_prefix hnone⟩
  · rintro (⟨u, hu, rest, rfl, hresult⟩ | ⟨hnone, rfl⟩)
    · rw [hwords.parseAmong_append hu rest, hresult]
    · exact parseAmong_of_no_prefix hnone

/-- The order in which the keywords are tried does not matter. -/
theorem Separate.parseAmong_eq_of_mem_iff (hwords : Separate words)
    {others : List (String × Form)} (hsame : ∀ u, u ∈ others ↔ u ∈ words) (text : List Char) :
    parseAmong others text = parseAmong words text := by
  have hothers : Separate others := by
    intro u hu v hv
    exact hwords u ((hsame u).mp hu) v ((hsame v).mp hv)
  rw [hothers.parseAmong_eq_iff]
  simp only [hsame]
  exact hwords.parseAmong_eq_iff.mp rfl

end Separate

/-! ## The vocabulary -/

theorem vocabulary_separate : Separate vocabulary := by
  unfold Separate
  decide

/-- No two keywords announce the same. -/
theorem eq_of_form_eq : ∀ u ∈ vocabulary, ∀ v ∈ vocabulary, u.2 = v.2 → u = v := by decide

/-- What a keyword alone can stand for sets nothing. -/
theorem ne_set_of_plain {word : String} {command : Command}
    (h : (word, Form.plain command) ∈ vocabulary) (field : Field) (n : Int32) :
    command ≠ set field n := by
  rintro rfl
  cases field <;> simp [vocabulary, set] at h

theorem set_inj {field field' : Field} {n n' : Int32} :
    set field n = set field' n' ↔ field = field' ∧ n = n' := by
  cases field <;> cases field' <;> simp [set]

namespace Form

variable {form : Form} {rest : List Char}

theorem complete_eq_ok_iff {command : Command} :
    form.complete rest = .ok command ↔
      form = .plain command ∨
        ∃ field n, form = .valued field ∧ Value rest n.toInt ∧ set field n = command := by
  cases form with
  | plain c => simp [complete]
  | valued field =>
    simp only [complete, ← value?_eq_some_iff]
    cases value? rest <;> simp

theorem complete_eq_error_iff {e : CommandError} :
    form.complete rest = .error e ↔
      ∃ field, form = .valued field ∧ (¬ ∃ z, Value rest z) ∧ .invalidValue field = e := by
  cases form with
  | plain c => simp [complete]
  | valued field =>
    simp only [complete, ← value?_eq_none_iff]
    cases value? rest <;> simp

end Form

section Parse

variable {word : String} {text : List Char}

theorem parse_eq_plain_iff {command : Command} (hword : (word, Form.plain command) ∈ vocabulary) :
    parse text = .ok command ↔ word.toList <+: text := by
  rw [parse, vocabulary_separate.parseAmong_eq_iff]
  constructor
  · rintro (⟨u, hu, rest, rfl, hcomplete⟩ | ⟨-, hresult⟩)
    · rcases Form.complete_eq_ok_iff.mp hcomplete with hform | ⟨field, n, -, -, hset⟩
      · rw [eq_of_form_eq u hu _ hword hform]
        exact List.prefix_append _ _
      · exact absurd hset.symm (ne_set_of_plain hword field n)
    · cases hresult
  · rintro ⟨rest, rfl⟩
    exact .inl ⟨_, hword, rest, rfl, rfl⟩

theorem parse_eq_set_iff {field : Field} (hword : (word, Form.valued field) ∈ vocabulary)
    {n : Int32} :
    parse text = .ok (set field n) ↔ ∃ rest, text = word.toList ++ rest ∧ Value rest n.toInt := by
  rw [parse, vocabulary_separate.parseAmong_eq_iff]
  constructor
  · rintro (⟨⟨word', form⟩, hu, rest, rfl, hcomplete⟩ | ⟨-, hresult⟩)
    · rcases Form.complete_eq_ok_iff.mp hcomplete with hform | ⟨field', n', hform, hvalue, hset⟩
      · subst hform
        exact absurd rfl (ne_set_of_plain hu field n)
      · obtain ⟨rfl, rfl⟩ := set_inj.mp hset
        rw [eq_of_form_eq _ hu _ hword hform]
        exact ⟨rest, rfl, hvalue⟩
    · cases hresult
  · rintro ⟨rest, rfl, hvalue⟩
    exact .inl ⟨_, hword, rest, rfl,
      Form.complete_eq_ok_iff.mpr (.inr ⟨field, n, rfl, hvalue, rfl⟩)⟩

theorem parse_eq_invalidValue_iff {field : Field} (hword : (word, Form.valued field) ∈ vocabulary) :
    parse text = .error (.invalidValue field) ↔
      ∃ rest, text = word.toList ++ rest ∧ ¬ ∃ z, Value rest z := by
  rw [parse, vocabulary_separate.parseAmong_eq_iff]
  constructor
  · rintro (⟨u, hu, rest, rfl, hcomplete⟩ | ⟨-, hresult⟩)
    · obtain ⟨field', hform, hnone, hfield⟩ := Form.complete_eq_error_iff.mp hcomplete
      cases hfield
      rw [eq_of_form_eq u hu _ hword hform]
      exact ⟨rest, rfl, hnone⟩
    · cases hresult
  · rintro ⟨rest, rfl, hnone⟩
    exact .inl ⟨_, hword, rest, rfl, Form.complete_eq_error_iff.mpr ⟨field, rfl, hnone, rfl⟩⟩

theorem parse_eq_unknown_iff :
    parse text = .error .unknown ↔ ∀ u ∈ vocabulary, ¬ u.1.toList <+: text := by
  rw [parse, vocabulary_separate.parseAmong_eq_iff]
  constructor
  · rintro (⟨u, hu, rest, rfl, hcomplete⟩ | ⟨hnone, -⟩)
    · -- a keyword without its value is not unknown
      obtain ⟨field, -, -, hfield⟩ := Form.complete_eq_error_iff.mp hcomplete
      cases hfield
    · exact hnone
  · intro hnone
    exact .inr ⟨hnone, rfl⟩

end Parse

/-! ## The grammar -/

/-- The words that commands begin with. -/
def keywords : List String :=
  ["ENABLE_RECORDING", "DISABLE_RECORDING", "GAIN=", "EXPOSURE=", "STOP_IMAGING", "EXIT", "SNAP"]

/-- Which texts get which answer from a reader of commands. -/
structure Grammar (read : List Char → Except CommandError Command) : Prop where
  enableRecording : ∀ text,
    read text = .ok .enableRecording ↔ "ENABLE_RECORDING".toList <+: text
  disableRecording : ∀ text,
    read text = .ok .disableRecording ↔ "DISABLE_RECORDING".toList <+: text
  stopImaging : ∀ text, read text = .ok .stopImaging ↔ "STOP_IMAGING".toList <+: text
  exit : ∀ text, read text = .ok .exit ↔ "EXIT".toList <+: text
  snap : ∀ text, read text = .ok .snap ↔ "SNAP".toList <+: text
  setGain : ∀ text n, read text = .ok (.setGain n) ↔
    ∃ rest, text = "GAIN=".toList ++ rest ∧ Value rest n.toInt
  setExposure : ∀ text n, read text = .ok (.setExposure n) ↔
    ∃ rest, text = "EXPOSURE=".toList ++ rest ∧ Value rest n.toInt
  invalidGain : ∀ text, read text = .error (.invalidValue .gain) ↔
    ∃ rest, text = "GAIN=".toList ++ rest ∧ ¬ ∃ z, Value rest z
  invalidExposure : ∀ text, read text = .error (.invalidValue .exposure) ↔
    ∃ rest, text = "EXPOSURE=".toList ++ rest ∧ ¬ ∃ z, Value rest z
  unknown : ∀ text, read text = .error .unknown ↔ ∀ word ∈ keywords, ¬ word.toList <+: text

/-- Reading a command follows the grammar. No text begins with two of the keywords, so
that the order in which they are tried makes no difference. -/
theorem parse_grammar :
    Grammar parse ∧
      (∀ text : List Char, ∀ u ∈ keywords, ∀ v ∈ keywords,
        u.toList <+: text → v.toList <+: text → u = v) ∧
      ∀ order : List (String × Form), order.Perm vocabulary →
        ∀ text, parseAmong order text = parse text := by
  have hkeywords : keywords = vocabulary.map Prod.fst := rfl
  have hgain : ("GAIN=", Form.valued .gain) ∈ vocabulary := by decide
  have hexposure : ("EXPOSURE=", Form.valued .exposure) ∈ vocabulary := by decide
  refine ⟨?_, ?_, ?_⟩
  · constructor
    case enableRecording => exact fun text => parse_eq_plain_iff (by decide)
    case disableRecording => exact fun text => parse_eq_plain_iff (by decide)
    case stopImaging => exact fun text => parse_eq_plain_iff (by decide)
    case exit => exact fun text => parse_eq_plain_iff (by decide)
    case snap => exact fun text => parse_eq_plain_iff (by decide)
    case setGain => exact fun text n => parse_eq_set_iff hgain
    case setExposure => exact fun text n => parse_eq_set_iff hexposure
    case invalidGain => exact fun text => parse_eq_invalidValue_iff hgain
    case invalidExposure => exact fun text => parse_eq_invalidValue_iff hexposure
    case unknown =>
      intro text
      simp [parse_eq_unknown_iff, hkeywords]
  · intro text word hword word' hword' hprefix hprefix'
    rw [hkeywords] at hword hword'
    obtain ⟨u, hu, rfl⟩ := List.mem_map.mp hword
    obtain ⟨v, hv, rfl⟩ := List.mem_map.mp hword'
    rw [vocabulary_separate.eq_of_prefix hu hv hprefix hprefix']
  · intro order horder text
    exact vocabulary_separate.parseAmong_eq_of_mem_iff (fun _ => horder.mem_iff) text

example : parse "GAIN=\u3000+0042 ".toList = .ok (.setGain 42) := by decide

example : parse "EXPOSURE=2147483648".toList = .error (.invalidValue .exposure) := by decide

end FrameServer.Command
