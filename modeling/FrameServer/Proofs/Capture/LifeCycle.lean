import FrameServer.Proofs.Capture.Calls
import FrameServer.Proofs.Number.Binary64

/-!
# FrameServer.Proofs.Capture.LifeCycle — what a camera's owner can rely on

Whatever calls were made of a camera and whatever its acquisition did beside them, its
gain and its exposure lie within their ranges, and which of the next calls fail can be
told from the calls that returned before.

1. **Numbers** of a range and the nearest of them.
2. **Histories** of calls that have returned.
3. **What every call and every move keeps**
4. **The life cycle** of a camera.
-/

namespace FrameServer

/-! ## Numbers -/

namespace Binary64

variable {low high x : Binary64}

/-- The number of a range that is nearest to an integer. -/
structure Nearest (low high : Binary64) (n : Int) (x : Binary64) : Prop where
  low_le : low.le x = true
  le_high : x.le high = true
  nearest : ∀ y : Binary64, low.le y = true → y.le high = true →
    (x.scaled - n * one).natAbs ≤ (y.scaled - n * one).natAbs

theorem le_trans {y : Binary64} (hlow : low.le x = true) (hx : x.le y = true) :
    low.le y = true := by
  rw [le_iff] at *
  exact ⟨hlow.1, hx.2.1, Int.le_trans hlow.2.2 hx.2.2⟩

theorem clamp?_eq (hrange : low.le high = true) (x : Binary64) :
    clamp? low high x = some (clamp low high x) := by
  rw [clamp?, if_pos hrange]

theorem nearest_clamp {n : Int} (hrange : low.le high = true) (hnumber : x.isNaN = false)
    (hvalue : x.scaled = n * one) : Nearest low high n (clamp low high x) := by
  obtain ⟨hlow, hhigh, hle⟩ := le_iff.mp hrange
  unfold clamp
  split
  · next hbelow =>
    -- all of the range lies above the integer, its low end closest
    obtain ⟨-, -, hlt⟩ := lt_iff.mp hbelow
    refine ⟨le_iff.mpr ⟨hlow, hlow, Int.le_refl _⟩, hrange, ?_⟩
    intro y hy _
    have hley := (le_iff.mp hy).2.2
    omega
  · next hbelow =>
    have hge : low.scaled ≤ x.scaled := by
      rw [lt_iff] at hbelow
      exact Int.not_lt.mp fun hlt => hbelow ⟨hnumber, hlow, hlt⟩
    split
    · next habove =>
      obtain ⟨-, -, hlt⟩ := lt_iff.mp habove
      refine ⟨hrange, le_iff.mpr ⟨hhigh, hhigh, Int.le_refl _⟩, ?_⟩
      intro y _ hy
      have hley := (le_iff.mp hy).2.2
      omega
    · next habove =>
      have hle' : x.scaled ≤ high.scaled := by
        rw [lt_iff] at habove
        exact Int.not_lt.mp fun hlt => habove ⟨hhigh, hnumber, hlt⟩
      refine ⟨le_iff.mpr ⟨hlow, hnumber, hge⟩, le_iff.mpr ⟨hnumber, hhigh, hle'⟩, ?_⟩
      intro y _ _
      -- the integer itself lies in the range
      rw [hvalue, Int.sub_self]
      exact Nat.zero_le _

/-- The nearest number to an integer of 32 bits. -/
theorem nearest_clamp_ofInt (hrange : low.le high = true) (n : Int32) :
    Nearest low high n.toInt (clamp low high (.ofInt n.toInt)) := by
  have hleast := n.le_toInt
  have hgreatest := n.toInt_lt
  have hsmall : n.toInt.natAbs < 2 ^ 53 := by omega
  obtain ⟨hnumber, hvalue⟩ := scaled_ofInt hsmall
  exact nearest_clamp hrange hnumber hvalue

end Binary64

namespace PatternCamera

open Pattern

/-! ## Histories -/

/-- A call of a camera, and what it gave back. -/
abbrev Returned := Call × Except CaptureError Answer

/-- The calls of a camera that have returned, the latest last. -/
abbrev History := List Returned

/-- Something of one kind happened, and nothing of another kind since. -/
def Since (happened undone : Returned → Prop) (history : History) : Prop :=
  ∃ before r after, history = before ++ r :: after ∧ happened r ∧ ∀ s ∈ after, ¬ undone s

/-- A configuration was taken since the camera was given up the last time. -/
def Configured (history : History) : Prop :=
  Since (fun r => ∃ config answer, r = (.configure config, .ok answer))
    (fun r => r.1 = .shutdown) history

/-- An acquisition was started and not stopped since. -/
def Streaming (history : History) : Prop :=
  Since (fun r => ∃ answer, r = (.start, .ok answer))
    (fun r => r.1 = .stop ∨ r.1 = .shutdown) history

/-- The configuration that a call took, and the limits that it reported. -/
def taken? : Returned → Option (CaptureConfig × SensorLimits)
  | (.configure config, .ok (.limits limits)) => some (config, limits)
  | _ => none

/-- The configuration that was taken last, and the limits that were reported for it. -/
def lastTaken? (history : History) : Option (CaptureConfig × SensorLimits) :=
  (history.filterMap taken?).getLast?

/-- A call that neither took a configuration nor began or ended an acquisition. -/
def Passing : Returned → Prop
  | (.configure _, .ok _) | (.start, .ok _) | (.stop, _) | (.shutdown, _) => False
  | _ => True

section History

variable {happened undone : Returned → Prop} {history : History} {r : Returned}

theorem not_since_nil : ¬ Since happened undone [] := by
  rintro ⟨before, r, after, hsplit, -⟩
  simp at hsplit

theorem since_append_singleton_iff :
    Since happened undone (history ++ [r]) ↔
      happened r ∨ Since happened undone history ∧ ¬ undone r := by
  constructor
  · rintro ⟨before, s, after, hsplit, hs, hafter⟩
    rcases List.eq_nil_or_concat after with rfl | ⟨front, t, rfl⟩
    · obtain ⟨-, hsame⟩ := List.append_inj' hsplit rfl
      cases hsame
      exact .inl hs
    · rw [List.concat_eq_append, ← List.cons_append, ← List.append_assoc] at hsplit
      obtain ⟨rfl, hsame⟩ := List.append_inj' hsplit rfl
      cases hsame
      refine .inr ⟨⟨before, s, front, rfl, hs, ?_⟩, hafter r (by simp)⟩
      intro t ht
      exact hafter t (by simp [ht])
  · rintro (hr | ⟨⟨before, s, after, rfl, hs, hafter⟩, hr⟩)
    · exact ⟨history, r, [], rfl, hr, by simp⟩
    · refine ⟨before, s, after ++ [r], by simp, hs, ?_⟩
      intro t ht
      rcases List.mem_append.mp ht with ht | ht
      · exact hafter t ht
      · rw [List.mem_singleton.mp ht]
        exact hr

theorem lastTaken?_append_singleton (history : History) (r : Returned) :
    lastTaken? (history ++ [r]) = (taken? r).or (lastTaken? history) := by
  cases htaken : taken? r <;> simp [lastTaken?, htaken]

namespace Passing

theorem configured_iff (h : Passing r) : Configured (history ++ [r]) ↔ Configured history := by
  have htaken : ¬ ∃ config answer, r = (.configure config, .ok answer) := by
    rintro ⟨config, answer, rfl⟩
    exact h
  have hshutdown : r.1 ≠ .shutdown := by
    obtain ⟨call, answer⟩ := r
    rintro rfl
    exact h
  simp [Configured, since_append_singleton_iff, htaken, hshutdown]

theorem streaming_iff (h : Passing r) : Streaming (history ++ [r]) ↔ Streaming history := by
  have hstarted : ¬ ∃ answer, r = (.start, .ok answer) := by
    rintro ⟨answer, rfl⟩
    exact h
  have hstopped : ¬ (r.1 = .stop ∨ r.1 = .shutdown) := by
    obtain ⟨call, answer⟩ := r
    rintro (rfl | rfl) <;> exact h
  simp [Streaming, since_append_singleton_iff, hstarted, hstopped]

theorem taken?_eq_none (h : Passing r) : taken? r = none := by
  unfold taken?
  split
  · exact h.elim
  · rfl

end Passing

end History

/-! ## What every call and every move keeps -/

/-- The ranges of the settings are the reported ones. -/
def Reported (s : Settings) (limits : SensorLimits) : Prop :=
  s.gainMin = limits.gainMin ∧ s.gainMax = limits.gainMax ∧
    s.exposureMin = limits.exposureMin ∧ s.exposureMax = limits.exposureMax

/-- What is known of a camera from the calls that have returned. -/
structure Kept (c : PatternCamera) (history : History) : Prop where
  gain : c.settings.gainMin.le c.settings.gain = true ∧
    c.settings.gain.le c.settings.gainMax = true
  exposure : c.settings.exposureMin.le c.settings.exposure = true ∧
    c.settings.exposure.le c.settings.exposureMax = true
  ranges : ∀ config limits, lastTaken? history = some (config, limits) →
    Reported c.settings limits
  mode : c.mode = ((lastTaken? history).map fun taken => taken.1.trigger).getD .freerun
  configured : c.configured = true ↔ Configured history
  streaming : c.acquisition.isSome = true ↔ Streaming history

theorem zero_le_gainMax : (0 : Binary64).le gainMax = true := by decide +kernel

theorem exposureMin_le_exposureMax : exposureMin.le exposureMax = true := by decide +kernel

/-- The settings that a configuration asks for lie within their ranges. -/
theorem settingsFor_within (config : CaptureConfig) :
    Binary64.Nearest 0 gainMax config.gain.toInt (settingsFor config).gain ∧
      Binary64.Nearest exposureMin exposureMax config.exposureUs.toInt
        (settingsFor config).exposure :=
  ⟨Binary64.nearest_clamp_ofInt zero_le_gainMax _,
    Binary64.nearest_clamp_ofInt exposureMin_le_exposureMax _⟩

namespace Kept

variable {c c' : PatternCamera} {history : History}

theorem gainRange (h : Kept c history) : c.settings.gainMin.le c.settings.gainMax = true :=
  Binary64.le_trans h.gain.1 h.gain.2

theorem exposureRange (h : Kept c history) :
    c.settings.exposureMin.le c.settings.exposureMax = true :=
  Binary64.le_trans h.exposure.1 h.exposure.2

theorem new : Kept new [] where
  gain := by decide +kernel
  exposure := by decide +kernel
  ranges := by simp [lastTaken?]
  mode := rfl
  configured := by simp [PatternCamera.new, Configured, not_since_nil]
  streaming := by simp [PatternCamera.new, Streaming, not_since_nil]

/-- After a call that took no configuration the settings and the mode are what they were. -/
theorem untaken (h : Kept c history) {r : Returned} (htaken : taken? r = none)
    {captured : UInt64} {acquisition : Option Acquisition} {configured : Bool}
    (hconfigured : configured = true ↔ Configured (history ++ [r]))
    (hstreaming : acquisition.isSome = true ↔ Streaming (history ++ [r])) :
    Kept { c with captured, acquisition, configured } (history ++ [r]) where
  gain := h.gain
  exposure := h.exposure
  ranges := by
    rw [lastTaken?_append_singleton, htaken, Option.none_or]
    exact h.ranges
  mode := by
    rw [lastTaken?_append_singleton, htaken, Option.none_or]
    exact h.mode
  configured := hconfigured
  streaming := hstreaming

theorem passing (h : Kept c history) {r : Returned} (hpassing : Passing r) :
    Kept c (history ++ [r]) :=
  h.untaken hpassing.taken?_eq_none (h.configured.trans hpassing.configured_iff.symm)
    (h.streaming.trans hpassing.streaming_iff.symm)

theorem call (h : Kept c history) {call : Call} {answer : Except CaptureError Answer}
    (hcalled : Called c call answer c') : Kept c' (history ++ [(call, answer)]) := by
  cases hcalled with
  | configured config hfits =>
    obtain ⟨hgain, hexposure⟩ := settingsFor_within config
    refine ⟨⟨hgain.low_le, hgain.le_high⟩, ⟨hexposure.low_le, hexposure.le_high⟩, ?_, ?_, ?_, ?_⟩
    · simp only [lastTaken?_append_singleton, taken?, Option.some_or]
      rintro _ _ ⟨rfl, rfl⟩
      exact ⟨rfl, rfl, rfl, rfl⟩
    · simp [lastTaken?_append_singleton, taken?]
    · simp [Configured, since_append_singleton_iff]
    · -- a camera may be configured while it streams
      simpa [Streaming, since_append_singleton_iff] using h.streaming
  | started hconfigured hidle =>
    refine h.untaken rfl ?_ ?_
    · simpa [Configured, since_append_singleton_iff] using h.configured
    · simp [Streaming, since_append_singleton_iff]
  | stopped captured =>
    refine h.untaken rfl ?_ ?_
    · simpa [Configured, since_append_singleton_iff] using h.configured
    · simp [Streaming, since_append_singleton_iff]
  | released captured =>
    refine h.untaken rfl ?_ ?_
    · simp [Configured, since_append_singleton_iff]
    · simp [Streaming, since_append_singleton_iff]
  | gainSet gain settings hsettings =>
    have hpassed := h.passing (r := (.setGain gain, .ok (.value settings.gain))) trivial
    have hnearest := Binary64.nearest_clamp_ofInt h.gainRange gain
    subst hsettings
    exact { hpassed with gain := ⟨hnearest.low_le, hnearest.le_high⟩ }
  | exposureSet exposure settings hsettings =>
    have hpassed := h.passing (r := (.setExposure exposure, .ok (.value settings.exposure))) trivial
    have hnearest := Binary64.nearest_clamp_ofInt h.exposureRange exposure
    subst hsettings
    exact { hpassed with exposure := ⟨hnearest.low_le, hnearest.le_high⟩ }
  | offsetsSet x y =>
    have hpassed := h.passing (r := (.setOffsets x y, .ok .done)) trivial
    exact { hpassed with }
  | triggered a hmode ha =>
    -- the acquisition is another one, and goes on all the same
    have hpassed := h.passing (r := (.trigger, .ok .done)) trivial
    exact { hpassed with streaming := by simpa [ha] using hpassed.streaming }
  | oversized config hfits e => exact h.passing trivial
  | notStarted hwhy e => exact h.passing trivial
  | unheeded hmode => exact h.passing trivial
  | notTriggered hmode hidle e => exact h.passing trivial

/-- A move of the acquisition leaves all alone that calls depend on. -/
theorem move (h : Kept c history) {a : Acquisition} {shot : Option Shot}
    (ha : c.acquisition = some a) (hmoved : Moved c a c' shot) : Kept c' history := by
  have hstreaming : Streaming history := h.streaming.mp (by simp [ha])
  cases hmoved <;> exact { h with streaming := by simp [goTo, beginFrame, hstreaming] }

end Kept

/-- What happens to a camera. -/
inductive Act where
  | call (call : Call)
  | move (m : Move)

/-- A camera with the calls of it that have returned. -/
structure Tended where
  camera : PatternCamera
  returned : History

/-- A call is made and returns, or the acquisition makes a move if it is enabled. -/
def Tended.act (t : Tended) : Act → Tended
  | .call call =>
    ⟨(t.camera.perform call).2, t.returned ++ [(call, (t.camera.perform call).1)]⟩
  | .move m =>
    match t.camera.move m with
    | some (c, _) => { t with camera := c }
    | none => t

/-- A new camera after some acts. -/
def tend (acts : List Act) : Tended := acts.foldl Tended.act ⟨new, []⟩

theorem Kept.act {t : Tended} (h : Kept t.camera t.returned) (act : Act) :
    Kept (t.act act).camera (t.act act).returned := by
  cases act with
  | call call => exact h.call (called_perform t.camera call)
  | move m =>
    unfold Tended.act
    dsimp only
    split
    · next c shot hmove =>
      obtain ⟨a, ha, hmoved⟩ := moved_of_move hmove
      exact h.move ha hmoved
    · exact h

theorem kept_tend (acts : List Act) : Kept (tend acts).camera (tend acts).returned := by
  unfold tend
  suffices hrun : ∀ t : Tended, Kept t.camera t.returned →
      Kept (acts.foldl Tended.act t).camera (acts.foldl Tended.act t).returned from
    hrun _ Kept.new
  induction acts with
  | nil => exact fun t h => h
  | cons act later ih => exact fun t h => ih (t.act act) (h.act act)

/-! ## The life cycle -/

/-- What the owner of a camera can rely on when some calls have returned. -/
structure LifeCycle (c : PatternCamera) (history : History) : Prop where
  gain_within : c.settings.gainMin.le c.settings.gain = true ∧
    c.settings.gain.le c.settings.gainMax = true
  exposure_within : c.settings.exposureMin.le c.settings.exposure = true ∧
    c.settings.exposure.le c.settings.exposureMax = true
  /-- There always is a nearest gain and a nearest exposure. -/
  clamps : ∀ x, c.settings.clampGain? x = some (c.settings.withGain x).gain ∧
    c.settings.clampExposure? x = some (c.settings.withExposure x).exposure
  configure_clamps : ∀ config,
    (settingsFor config).clampGain? (.ofInt config.gain.toInt) =
        some (settingsFor config).gain ∧
      (settingsFor config).clampExposure? (.ofInt config.exposureUs.toInt) =
        some (settingsFor config).exposure
  ranges : ∀ config limits, lastTaken? history = some (config, limits) →
    Reported c.settings limits
  setGain : ∀ n, ∃ gain,
    c.perform (.setGain n) =
        (.ok (.value gain), { c with settings := { c.settings with gain } }) ∧
      Binary64.Nearest c.settings.gainMin c.settings.gainMax n.toInt gain
  setExposure : ∀ n, ∃ exposure,
    c.perform (.setExposure n) =
        (.ok (.value exposure), { c with settings := { c.settings with exposure } }) ∧
      Binary64.Nearest c.settings.exposureMin c.settings.exposureMax n.toInt exposure
  configure_fails_iff : ∀ config, (∃ e, (c.perform (.configure config)).1 = .error e) ↔
    4096 < config.width.toNat ∨ 4096 < config.height.toNat
  streaming_iff : Camera.isStreaming c = true ↔ Streaming history
  start_succeeds_iff : (∃ answer, (c.perform .start).1 = .ok answer) ↔
    Camera.isStreaming c = false ∧ Configured history
  trigger_fails_iff : (∃ e, (c.perform .trigger).1 = .error e) ↔
    (∃ config limits, lastTaken? history = some (config, limits) ∧ config.trigger = .software) ∧
      Camera.isStreaming c = false
  refused : ∀ call e, (c.perform call).1 = .error e → (c.perform call).2 = c
  stop_succeeds : ∃ late last, c.stop = (.ok (), late, last) ∧
    Camera.isStreaming last = false ∧ last.stop = (.ok (), [], last)
  /-- Whatever the acquisition does until it has ended, it ends as it does for `stop`. -/
  stop_ends : ∀ ms, made ms c.requestStop ≤ 3 ∧
    ((c.requestStop.moves ms).2.join? = none →
      ∃ m, ((c.requestStop.moves ms).2.move m).isSome = true) ∧
    ∀ last, (c.requestStop.moves ms).2.join? = some last →
      c.stop = (.ok (), (c.requestStop.moves ms).1, last)
  shutdown_succeeds : ∃ last, c.perform .shutdown = (.ok .done, last) ∧
    Camera.isStreaming last = false ∧ last.shutdown = ([], last)

theorem isStreaming_eq_false_iff {c : PatternCamera} :
    Camera.isStreaming c = false ↔ c.acquisition = none := by
  simp [Camera.isStreaming]

namespace Kept

variable {c : PatternCamera} {history : History}

theorem mode_eq_software_iff (h : Kept c history) : c.mode = .software ↔
    ∃ config limits, lastTaken? history = some (config, limits) ∧ config.trigger = .software := by
  rw [h.mode]
  rcases lastTaken? history with - | ⟨config, limits⟩ <;> simp

theorem lifeCycle (h : Kept c history) : LifeCycle c history where
  gain_within := h.gain
  exposure_within := h.exposure
  clamps x := ⟨Binary64.clamp?_eq h.gainRange x, Binary64.clamp?_eq h.exposureRange x⟩
  configure_clamps _ :=
    ⟨Binary64.clamp?_eq zero_le_gainMax _, Binary64.clamp?_eq exposureMin_le_exposureMax _⟩
  ranges := h.ranges
  setGain n := ⟨_, rfl, Binary64.nearest_clamp_ofInt h.gainRange n⟩
  setExposure n := ⟨_, rfl, Binary64.nearest_clamp_ofInt h.exposureRange n⟩
  configure_fails_iff config := by
    rw [(called_perform c (.configure config)).configure_error_iff, Fits]
    omega
  streaming_iff := h.streaming
  start_succeeds_iff := by
    rw [(called_perform c .start).start_ok_iff, isStreaming_eq_false_iff, h.configured]
  trigger_fails_iff := by
    rw [(called_perform c .trigger).trigger_error_iff, isStreaming_eq_false_iff,
      h.mode_eq_software_iff]
  refused call e herror := by
    have hcalled := called_perform c call
    rw [herror] at hcalled
    exact hcalled.eq_of_error
  stop_succeeds := by
    obtain ⟨late, captured, hstop⟩ := c.exists_stop_eq
    exact ⟨late, _, hstop, rfl, stop_of_idle rfl⟩
  stop_ends ms := stop_of_moves c ms
  shutdown_succeeds := by
    obtain ⟨late, captured, hshutdown⟩ := c.exists_shutdown_eq
    rw [perform, hshutdown]
    exact ⟨_, rfl, rfl, shutdown_of_idle rfl rfl⟩

end Kept

/-- The life cycle of a camera: after any calls, with any moves of its acquisition between
them. -/
theorem life_cycle (acts : List Act) : LifeCycle (tend acts).camera (tend acts).returned :=
  (kept_tend acts).lifeCycle

end PatternCamera

end FrameServer
