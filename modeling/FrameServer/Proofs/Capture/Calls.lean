import FrameServer.Capture.Pattern

/-!
# FrameServer.Proofs.Capture.Calls — calls and moves of a pattern camera

The owner of a camera makes calls, and the acquisition makes moves beside them. A call
that fails changes nothing. An acquisition that was told to stop comes to its end in three
moves at most, whichever it makes, and always with the same frames.

1. **Calls** and what they give back.
2. **Moves**: what each of them makes of a camera.
3. **Stopping**: what comes of an acquisition does not depend on its moves.
4. **What calls make of a camera**, and which of them fail.
-/

namespace FrameServer.PatternCamera

open Pattern

/-! ## Calls -/

/-- What the owner of a camera can call. -/
inductive Call where
  | configure (config : CaptureConfig)
  | start
  | stop
  | setGain (gain : Int32)
  | setExposure (exposure : Int32)
  | setOffsets (x y : UInt32)
  | trigger
  | shutdown
deriving DecidableEq, Repr

/-- What a call gives back if it succeeds. -/
inductive Answer where
  | done
  | limits (limits : SensorLimits)
  | value (x : Binary64)
deriving DecidableEq, Repr

/-- Makes a call. Stopping and shutting down return after the acquisition has ended. -/
def perform (call : Call) (c : PatternCamera) : Except CaptureError Answer × PatternCamera :=
  match call with
  | .configure config => ((c.configure config).1.map .limits, (c.configure config).2)
  | .start => (c.start.1.map fun _ => .done, c.start.2)
  | .stop => (c.stop.1.map fun _ => .done, c.stop.2.2)
  | .setGain gain => ((c.setGain gain).1.map .value, (c.setGain gain).2)
  | .setExposure exposure => ((c.setExposure exposure).1.map .value, (c.setExposure exposure).2)
  | .setOffsets x y => ((c.setOffsets x y).1.map fun _ => .done, (c.setOffsets x y).2)
  | .trigger => (c.trigger.1.map fun _ => .done, c.trigger.2)
  | .shutdown => (.ok .done, c.shutdown.2)

/-! ## Moves -/

/-- The camera with its acquisition in another phase. -/
def goTo (c : PatternCamera) (a : Acquisition) (phase : Phase) : PatternCamera :=
  { c with acquisition := some { a with phase } }

/-- What a move of the acquisition `a` makes of a camera, and the frame that it delivers. -/
inductive Moved (c : PatternCamera) (a : Acquisition) : PatternCamera → Option Shot → Prop where
  /-- It goes on and sees the settings. -/
  | looked (hphase : a.phase = .checking) (hgoing : a.stopping = false) :
      Moved c a (c.goTo a (.waiting c.settings)) none
  /-- There is nothing left to do for it. -/
  | ended (hstopping : a.stopping = true)
      (hphase : a.phase = .checking ∨
        ∃ view, a.phase = .waiting view ∧ ¬ (a.mode = .software ∧ a.triggered = true)) :
      Moved c a (c.goTo a .ended) none
  | gaveUpWaiting (view : Settings) (hphase : a.phase = .waiting view)
      (hidle : a.mode = .software ∧ a.triggered = false) : Moved c a (c.goTo a .checking) none
  /-- It takes up a frame, on a trigger if it waits for one. -/
  | began (view : Settings) (hphase : a.phase = .waiting view)
      (hpaid : a.mode = .software → a.triggered = true)
      (hgoing : a.mode = .freerun → a.stopping = false) : Moved c a (c.beginFrame a view) none
  | delivered (view : Settings) (frameId : UInt64) (hphase : a.phase = .drawing view frameId)
      (hwide : view.width ≠ 0) :
      Moved c a (c.goTo a .checking) (some (shot view frameId c.clock))
  /-- A frame without width cannot be drawn. -/
  | failed (view : Settings) (frameId : UInt64) (hphase : a.phase = .drawing view frameId)
      (hwidth : view.width = 0) : Moved c a (c.goTo a .ended) none

theorem moved_of_move {c c' : PatternCamera} {m : Move} {shot : Option Shot}
    (hmove : c.move m = some (c', shot)) : ∃ a, c.acquisition = some a ∧ Moved c a c' shot := by
  unfold move at hmove
  split at hmove
  · cases hmove
  · next a ha =>
    refine ⟨a, ha, ?_⟩
    dsimp only at hmove
    split at hmove
    · next hphase =>
      cases hmove
      split
      · next hstop => exact .ended hstop (.inl hphase)
      · next hgoing => exact .looked hphase (Bool.eq_false_iff.mpr hgoing)
    · next view hphase =>
      split at hmove
      · next hmode =>
        cases hmove
        split
        · next hstop => exact .ended hstop (.inr ⟨view, hphase, by simp [hmode]⟩)
        · next hgoing =>
          exact .began view hphase (by simp [hmode]) fun _ => Bool.eq_false_iff.mpr hgoing
      · next hmode =>
        split at hmove
        · next htriggered =>
          cases hmove
          exact .began view hphase (fun _ => htriggered) (by simp [hmode])
        · next huntriggered =>
          split at hmove
          · next hstop =>
            cases hmove
            exact .ended hstop (.inr ⟨view, hphase, fun h => huntriggered h.2⟩)
          · cases hmove
    · next view hphase =>
      split at hmove
      · next hidle =>
        cases hmove
        exact .gaveUpWaiting view hphase ⟨hidle.1, by simpa using hidle.2⟩
      · cases hmove
    · next view frameId hphase =>
      split at hmove
      · next hwidth =>
        cases hmove
        exact .failed view frameId hphase hwidth
      · next hwide =>
        cases hmove
        exact .delivered view frameId hphase hwide
    · cases hmove

/-! ## Stopping -/

/-- How many moves an acquisition that was told to stop has before it at most. -/
def remaining : Phase → Nat
  | .waiting _ => 3
  | .drawing _ _ => 2
  | .checking => 1
  | .ended => 0

/-- How many of some moves are enabled when their turn comes. -/
def made : List Move → PatternCamera → Nat
  | [], _ => 0
  | m :: later, c =>
    match c.move m with
    | none => made later c
    | some (c, _) => made later c + 1

/-- What comes of an acquisition that was told to stop: the frame that it still delivers,
and the camera after it has ended. -/
def outcome (c : PatternCamera) (a : Acquisition) : List Shot × PatternCamera :=
  let last (view : Settings) (frameId : UInt64) : List Shot :=
    if view.width = 0 then [] else [shot view frameId c.clock]
  match a.phase with
  | .waiting view =>
    if a.mode = .software ∧ a.triggered = true then
      (last view (c.captured + 1),
        { c with captured := c.captured + 1, acquisition := none })
    else ([], { c with acquisition := none })
  | .drawing view frameId => (last view frameId, { c with acquisition := none })
  | .checking => ([], { c with acquisition := none })
  | .ended => ([], { c with acquisition := none })

section Stopping

variable {c c' : PatternCamera} {a : Acquisition} {shot : Option Shot}

/-- A move of an acquisition that was told to stop brings it nearer to its end, and what
comes of it stays the same. -/
theorem Moved.stopping (hmoved : Moved c a c' shot) (hstopping : a.stopping = true) :
    ∃ a', c'.acquisition = some a' ∧ a'.stopping = true ∧
      remaining a'.phase < remaining a.phase ∧
      outcome c a = (shot.toList ++ (outcome c' a').1, (outcome c' a').2) := by
  cases hmoved with
  | looked hphase hgoing =>
    rw [hstopping] at hgoing
    cases hgoing
  | ended _ hphase =>
    refine ⟨_, rfl, hstopping, ?_, ?_⟩
    · rcases hphase with hphase | ⟨view, hphase, -⟩ <;> simp [remaining, hphase]
    · rcases hphase with hphase | ⟨view, hphase, hunpaid⟩
      · simp [outcome, hphase, goTo]
      · simp [outcome, hphase, hunpaid, goTo]
  | gaveUpWaiting view hphase hidle =>
    refine ⟨_, rfl, hstopping, ?_, ?_⟩
    · simp [remaining, hphase]
    · simp [outcome, hphase, hidle, goTo]
  | began view hphase hpaid hgoing =>
    -- told to stop, it only takes up a frame that was triggered
    have hmode : a.mode = .software := by
      cases hmode : a.mode with
      | software => rfl
      | freerun =>
        rw [hgoing hmode] at hstopping
        cases hstopping
    refine ⟨_, rfl, hstopping, ?_, ?_⟩
    · simp [remaining, hphase]
    · simp [outcome, hphase, hmode, hpaid hmode, beginFrame]
  | delivered view frameId hphase hwide =>
    refine ⟨_, rfl, hstopping, ?_, ?_⟩
    · simp [remaining, hphase]
    · simp [outcome, hphase, hwide, goTo]
  | failed view frameId hphase hwidth =>
    refine ⟨_, rfl, hstopping, ?_, ?_⟩
    · simp [remaining, hphase]
    · simp [outcome, hphase, hwidth, goTo]

/-- As long as it has not ended, an acquisition that was told to stop can go on. -/
theorem exists_move (ha : c.acquisition = some a) (hstopping : a.stopping = true)
    (hphase : a.phase ≠ .ended) : ∃ m, (c.move m).isSome = true := by
  cases hp : a.phase with
  | checking => exact ⟨.check, by simp [move, ha, hp]⟩
  | waiting view =>
    refine ⟨.wake, ?_⟩
    cases hmode : a.mode with
    | freerun => simp [move, ha, hp, hmode]
    | software =>
      cases htriggered : a.triggered <;> simp [move, ha, hp, hmode, htriggered, hstopping]
  | drawing view frameId =>
    refine ⟨.deliver, ?_⟩
    by_cases hwidth : view.width = 0 <;> simp [move, ha, hp, hwidth]
  | ended => exact absurd hp hphase

/-- What comes of an acquisition that was told to stop is the same after any moves, and
each of them that is enabled brings it nearer to its end. -/
theorem outcome_moves (ha : c.acquisition = some a) (hstopping : a.stopping = true)
    (ms : List Move) :
    ∃ a', (c.moves ms).2.acquisition = some a' ∧ a'.stopping = true ∧
      made ms c + remaining a'.phase ≤ remaining a.phase ∧
      outcome c a =
        ((c.moves ms).1 ++ (outcome (c.moves ms).2 a').1, (outcome (c.moves ms).2 a').2) := by
  induction ms generalizing c a with
  | nil =>
    refine ⟨a, ha, hstopping, ?_, rfl⟩
    simp [made]
  | cons m later ih =>
    cases hmove : c.move m with
    | none =>
      simp only [moves, made, hmove]
      exact ih ha hstopping
    | some moved =>
      obtain ⟨next, shot⟩ := moved
      simp only [moves, made, hmove]
      obtain ⟨b, hb, hmoved⟩ := moved_of_move hmove
      obtain rfl : a = b := Option.some.inj (ha.symm.trans hb)
      obtain ⟨a', ha', hstopping', hless, houtcome⟩ := hmoved.stopping hstopping
      obtain ⟨a'', ha'', hstopping'', hless', houtcome'⟩ := ih ha' hstopping'
      -- the frame of this move, those of the later ones and those still to come
      refine ⟨a'', ha'', hstopping'', by omega, ?_⟩
      rw [houtcome, houtcome', List.append_assoc]

theorem ended_lastMoves (ha : c.acquisition = some a) (hstopping : a.stopping = true) :
    ∃ a', (c.moves lastMoves).2.acquisition = some a' ∧ a'.phase = .ended := by
  cases hp : a.phase with
  | checking => simp [lastMoves, moves, move, ha, hp, hstopping]
  | waiting view =>
    cases hmode : a.mode with
    | freerun => simp [lastMoves, moves, move, ha, hp, hmode, hstopping]
    | software =>
      cases htriggered : a.triggered with
      | false => simp [lastMoves, moves, move, ha, hp, hmode, htriggered, hstopping]
      | true =>
        by_cases hwidth : view.width = 0 <;>
          simp [lastMoves, moves, move, beginFrame, ha, hp, hmode, htriggered, hstopping, hwidth]
  | drawing view frameId =>
    by_cases hwidth : view.width = 0 <;>
      simp [lastMoves, moves, move, ha, hp, hstopping, hwidth]
  | ended => simp [lastMoves, moves, move, ha, hp]

/-- A call that waits for the acquisition returns when it has ended, if there is one. -/
theorem of_join? (hjoin : c.join? = some c') :
    c' = { c with acquisition := none } ∧ ∀ a, c.acquisition = some a → a.phase = .ended := by
  unfold join? at hjoin
  split at hjoin
  · next a ha =>
    split at hjoin
    · next hended =>
      cases hjoin
      refine ⟨rfl, ?_⟩
      intro b hb
      rw [← Option.some.inj (ha.symm.trans hb)]
      exact hended
    · cases hjoin
  · next hidle =>
    cases hjoin
    rw [← hidle]
    refine ⟨rfl, ?_⟩
    intro a ha
    rw [hidle] at ha
    cases ha

/-- A call that stops the camera returns what comes of the acquisition. -/
theorem stop_eq_outcome (ha : c.acquisition = some a) :
    c.stop = (.ok (), outcome c.requestStop { a with stopping := true }) := by
  have hrequested : c.requestStop.acquisition = some { a with stopping := true } := by
    simp [requestStop, ha]
  obtain ⟨a', ha', -, -, houtcome⟩ := outcome_moves hrequested rfl lastMoves
  obtain ⟨b, hb, hended⟩ := ended_lastMoves hrequested rfl
  obtain rfl : a' = b := Option.some.inj (ha'.symm.trans hb)
  rw [houtcome, stop]
  simp [outcome, hended]

theorem requestStop_of_idle (hidle : c.acquisition = none) : c.requestStop = c := by
  obtain ⟨settings, mode, configured, captured, clock, acquisition⟩ := c
  cases hidle
  rfl

theorem moves_of_idle (hidle : c.acquisition = none) (ms : List Move) :
    c.moves ms = ([], c) ∧ made ms c = 0 := by
  have hmove : ∀ m, c.move m = none := by
    intro m
    rw [move, hidle]
  induction ms with
  | nil => exact ⟨rfl, rfl⟩
  | cons m later ih => simp [moves, made, hmove, ih]

theorem stop_of_idle (hidle : c.acquisition = none) : c.stop = (.ok (), [], c) := by
  rw [stop, requestStop_of_idle hidle, (moves_of_idle hidle lastMoves).1]
  obtain ⟨settings, mode, configured, captured, clock, acquisition⟩ := c
  cases hidle
  rfl

/-- Whatever moves the acquisition makes after it was told to stop, it makes three of them
at most and never waits for anything. When the call that waits for it returns, it gives
what `stop` gives, and the same frames were delivered meanwhile. -/
theorem stop_of_moves (c : PatternCamera) (ms : List Move) :
    made ms c.requestStop ≤ 3 ∧
      ((c.requestStop.moves ms).2.join? = none →
        ∃ m, ((c.requestStop.moves ms).2.move m).isSome = true) ∧
      ∀ last, (c.requestStop.moves ms).2.join? = some last →
        c.stop = (.ok (), (c.requestStop.moves ms).1, last) := by
  cases ha : c.acquisition with
  | none =>
    obtain ⟨hmoves, hmade⟩ := moves_of_idle ha ms
    have hjoin : c.join? = some c := by rw [join?, ha]
    rw [requestStop_of_idle ha, hmoves, hmade, hjoin, stop_of_idle ha]
    simp
  | some a =>
    have hrequested : c.requestStop.acquisition = some { a with stopping := true } := by
      simp [requestStop, ha]
    obtain ⟨a', ha', hstopping', hless, houtcome⟩ := outcome_moves hrequested rfl ms
    have hthree : remaining { a with stopping := true }.phase ≤ 3 := by
      cases a.phase <;> simp [remaining]
    refine ⟨by omega, ?_, ?_⟩
    · intro hwaits
      refine exists_move ha' hstopping' ?_
      intro hended
      simp [join?, ha', hended] at hwaits
    · intro last hlast
      obtain ⟨rfl, hended⟩ := of_join? hlast
      rw [stop_eq_outcome ha, houtcome]
      simp [outcome, hended a' ha']

/-- Stopping changes nothing but the acquisition and the number of frames. -/
theorem exists_stop_eq (c : PatternCamera) :
    ∃ late captured, c.stop = (.ok (), late, { c with captured, acquisition := none }) := by
  cases ha : c.acquisition with
  | none =>
    refine ⟨[], c.captured, ?_⟩
    rw [stop_of_idle ha, ← ha]
  | some a =>
    rw [stop_eq_outcome ha]
    unfold outcome
    dsimp only
    split
    · split
      · exact ⟨_, c.captured + 1, rfl⟩
      · exact ⟨_, c.captured, rfl⟩
    · exact ⟨_, c.captured, rfl⟩
    · exact ⟨_, c.captured, rfl⟩
    · exact ⟨_, c.captured, rfl⟩

/-- Shutting down gives up the configuration besides. -/
theorem exists_shutdown_eq (c : PatternCamera) :
    ∃ late captured, c.shutdown =
      (late, { c with captured, acquisition := none, configured := false }) := by
  obtain ⟨late, captured, hstop⟩ := c.exists_stop_eq
  rw [shutdown, hstop]
  exact ⟨late, captured, rfl⟩

theorem shutdown_of_idle (hidle : c.acquisition = none) (hgivenUp : c.configured = false) :
    c.shutdown = ([], c) := by
  rw [shutdown, stop_of_idle hidle]
  obtain ⟨settings, mode, configured, captured, clock, acquisition⟩ := c
  cases hgivenUp
  rfl

end Stopping

/-! ## What calls make of a camera -/

/-- The frames are no larger than those of the sensor. -/
def Fits (config : CaptureConfig) : Prop :=
  config.width.toNat ≤ 4096 ∧ config.height.toNat ≤ 4096

instance (config : CaptureConfig) : Decidable (Fits config) :=
  inferInstanceAs (Decidable (_ ∧ _))

/-- What a call makes of a camera, and what it gives back. -/
inductive Called (c : PatternCamera) :
    Call → Except CaptureError Answer → PatternCamera → Prop where
  | configured (config : CaptureConfig) (hfits : Fits config) :
      Called c (.configure config)
        (.ok (.limits ⟨config.width, config.height, 0, gainMax, exposureMin, exposureMax⟩))
        { c with settings := settingsFor config, mode := config.trigger, configured := true }
  | oversized (config : CaptureConfig) (hfits : ¬ Fits config) (e : CaptureError) :
      Called c (.configure config) (.error e) c
  | started (hconfigured : c.configured = true) (hidle : c.acquisition = none) :
      Called c .start (.ok .done) { c with acquisition := some ⟨c.mode, false, false, .checking⟩ }
  | notStarted (hwhy : ¬ (c.acquisition = none ∧ c.configured = true)) (e : CaptureError) :
      Called c .start (.error e) c
  | stopped (captured : UInt64) :
      Called c .stop (.ok .done) { c with captured, acquisition := none }
  | gainSet (gain : Int32) (settings : Settings)
      (hsettings : settings = c.settings.withGain (.ofInt gain.toInt)) :
      Called c (.setGain gain) (.ok (.value settings.gain)) { c with settings }
  | exposureSet (exposure : Int32) (settings : Settings)
      (hsettings : settings = c.settings.withExposure (.ofInt exposure.toInt)) :
      Called c (.setExposure exposure) (.ok (.value settings.exposure)) { c with settings }
  | offsetsSet (x y : UInt32) :
      Called c (.setOffsets x y) (.ok .done)
        { c with settings := { c.settings with offsetX := x, offsetY := y } }
  /-- A free-running camera takes no heed of a trigger. -/
  | unheeded (hmode : c.mode ≠ .software) : Called c .trigger (.ok .done) c
  | triggered (a : Acquisition) (hmode : c.mode = .software) (ha : c.acquisition = some a) :
      Called c .trigger (.ok .done) { c with acquisition := some { a with triggered := true } }
  | notTriggered (hmode : c.mode = .software) (hidle : c.acquisition = none) (e : CaptureError) :
      Called c .trigger (.error e) c
  | released (captured : UInt64) :
      Called c .shutdown (.ok .done) { c with captured, acquisition := none, configured := false }

section Calls

variable {c : PatternCamera}

theorem fits_iff {config : CaptureConfig} :
    Fits config ↔ ¬ (sensorSide < config.width || sensorSide < config.height) = true := by
  have hside : sensorSide.toNat = 4096 := rfl
  rw [Bool.or_eq_true, decide_eq_true_eq, decide_eq_true_eq, UInt32.lt_iff_toNat_lt,
    UInt32.lt_iff_toNat_lt, Fits, hside]
  omega

theorem called_perform (c : PatternCamera) (call : Call) :
    Called c call (c.perform call).1 (c.perform call).2 := by
  cases call with
  | configure config =>
    unfold perform configure
    dsimp only
    split
    · next hlarge => exact .oversized config (fun hfits => fits_iff.mp hfits hlarge) _
    · next hsmall => exact .configured config (fits_iff.mpr hsmall)
  | start =>
    unfold perform start
    dsimp only
    split
    · next hunconfigured =>
      refine .notStarted ?_ _
      rintro ⟨-, hconfigured⟩
      simp [hconfigured] at hunconfigured
    · next hconfigured =>
      split
      · next hstreaming =>
        refine .notStarted ?_ _
        rintro ⟨hidle, -⟩
        simp [hidle] at hstreaming
      · next hidle => exact .started (by simpa using hconfigured) (by simpa using hidle)
  | stop =>
    obtain ⟨late, captured, hstop⟩ := c.exists_stop_eq
    rw [perform, hstop]
    exact .stopped captured
  | setGain gain => exact .gainSet gain _ rfl
  | setExposure exposure => exact .exposureSet exposure _ rfl
  | setOffsets x y => exact .offsetsSet x y
  | trigger =>
    unfold perform trigger
    dsimp only
    split
    · next hmode => exact .unheeded hmode
    · next hmode =>
      rw [ne_eq, Decidable.not_not] at hmode
      split
      · next a ha => exact .triggered a hmode ha
      · next hidle => exact .notTriggered hmode hidle _
  | shutdown =>
    obtain ⟨late, captured, hshutdown⟩ := c.exists_shutdown_eq
    rw [perform, hshutdown]
    exact .released captured

namespace Called

variable {c' : PatternCamera} {answer : Except CaptureError Answer}

/-- A call that fails leaves the camera as it was. -/
theorem eq_of_error {call : Call} {e : CaptureError} (h : Called c call (.error e) c') :
    c' = c := by
  cases h <;> rfl

theorem configure_error_iff {config : CaptureConfig} (h : Called c (.configure config) answer c') :
    (∃ e, answer = .error e) ↔ ¬ Fits config := by
  cases h with
  | configured _ hfits => simp [hfits]
  | oversized _ hfits e => simp [hfits]

theorem start_ok_iff (h : Called c .start answer c') :
    (∃ given, answer = .ok given) ↔ c.acquisition = none ∧ c.configured = true := by
  cases h with
  | started hconfigured hidle => simp [hconfigured, hidle]
  | notStarted hwhy e => simp only [hwhy, reduceCtorEq, exists_false]

theorem trigger_error_iff (h : Called c .trigger answer c') :
    (∃ e, answer = .error e) ↔ c.mode = .software ∧ c.acquisition = none := by
  cases h with
  | unheeded hmode => simp [hmode]
  | triggered a hmode ha => simp [ha]
  | notTriggered hmode hidle e => simp [hmode, hidle]

end Called

end Calls

end FrameServer.PatternCamera
