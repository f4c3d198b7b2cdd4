import FrameServer.Exchange
import FrameServer.Proofs.Capture.Calls
import FrameServer.Proofs.Ring.Contents
import FrameServer.Recording.ImageFile

/-!
# FrameServer.Proofs.Capture.Drawn — pictures that fill their places

A camera that draws pictures of one size announces as many bytes as it draws. In a place
of that size such a picture is kept whole, whatever was there before, and an image file
can be made of it.

1. **Sizes** of pictures.
2. **Intact frames**: frames that are whole pictures of the camera.
3. **Image files** of intact frames.
4. **The camera** draws pictures of the size to which it was configured.
-/

namespace FrameServer

/-! ## Sizes -/

/-- The number of pixels of a picture is no more than fits a word. -/
theorem toNat_pixelCount (width height : UInt32) :
    (width.toUInt64 * height.toUInt64).toNat = width.toNat * height.toNat := by
  have hlt : width.toNat * height.toNat < 2 ^ 64 :=
    Nat.lt_of_lt_of_le (Nat.mul_lt_mul'' width.toNat_lt height.toNat_lt) (Nat.le_refl _)
  rw [UInt64.toNat_mul, UInt32.toNat_toUInt64, UInt32.toNat_toUInt64]
  exact Nat.mod_eq_of_lt hlt

theorem Pattern.length_pixels (view : Settings) (frameId : UInt64) :
    (pixels view frameId).length = view.width.toNat * view.height.toNat := by
  unfold pixels
  simp only [List.length_flatMap, List.length_map, List.length_range, List.map_const']
  rw [List.sum_replicate_nat, Nat.mul_comm]

/-- A shot as it goes into the ring. -/
def Shot.stamped (recording : Bool) (rate : Binary64) (shot : Shot) : Shot :=
  { shot with header := { shot.header with recording, measuredRate := rate } }

/-- A shot that fills its place is kept as it is, whatever the place held before. -/
theorem Shot.keptOver_of_full {shot : Shot} {length : Nat} (hlength : shot.data.length = length)
    (himage : shot.header.imageSize.toNat = length)
    (hpayload : shot.header.payloadSize.toNat = length) (old : Bytes) :
    shot.keptOver length old = ⟨shot.header, shot.data⟩ := by
  have hsize : UInt64.ofNat (min shot.data.length length) = shot.header.imageSize := by
    rw [hlength, Nat.min_self, ← himage, UInt64.ofNat_toNat]
  have hpayloadSize :
      UInt64.ofNat (min shot.header.payloadSize.toNat length) = shot.header.payloadSize := by
    rw [hpayload, Nat.min_self, ← hpayload, UInt64.ofNat_toNat]
  have hbytes : (shot.keptOver length old).payload = shot.data := by
    have hle : shot.header.payloadSize.toNat ≤ shot.data.length := by omega
    rw [shot.keptOver_payload_of_le old hle, hpayload, Nat.min_self, ← hlength, List.take_length]
  show (⟨{ shot.header with
    imageSize := UInt64.ofNat (min shot.data.length length)
    payloadSize := UInt64.ofNat (min shot.header.payloadSize.toNat length) },
    (shot.keptOver length old).payload⟩ : Frame) = _
  rw [hsize, hpayloadSize, hbytes]

/-! ## Intact frames -/

/-- A shot of the pattern camera with settings of a size. -/
def Shot.Drawn (width height : UInt32) (shot : Shot) : Prop :=
  ∃ view frameId clock, view.width = width ∧ view.height = height ∧
    shot = PatternCamera.shot view frameId clock

/-- A frame that was neither cut nor filled up: its sizes are all those of the picture,
and it is what is kept of a shot of the camera, whatever its place held before. -/
structure Frame.Intact (width height : UInt32) (f : Frame) : Prop where
  wide : f.header.width = width.toUInt64
  high : f.header.height = height.toUInt64
  imageSize : f.header.imageSize.toNat = width.toNat * height.toNat
  payloadSize : f.header.payloadSize.toNat = width.toNat * height.toNat
  length : f.payload.length = width.toNat * height.toNat
  own : ∃ (shot : Shot) (recording : Bool) (rate : Binary64), shot.Drawn width height ∧
    shot.header.frameId = f.header.frameId ∧ shot.data = f.payload ∧
    ∀ old, (shot.stamped recording rate).keptOver (width.toNat * height.toNat) old = f

namespace Frame.Intact

variable {width height : UInt32} {f : Frame}

/-- A place that a picture fills keeps the picture, whatever it held before. -/
theorem kept_eq {shot : Shot} (hshot : shot.Drawn width height) {recording : Bool}
    {rate : Binary64} {old : Bytes} :
    (shot.stamped recording rate).keptOver (width.toNat * height.toNat) old =
      ⟨(shot.stamped recording rate).header, shot.data⟩ := by
  rcases hshot with ⟨view, frameId, clock, rfl, rfl, rfl⟩
  have hcount := toNat_pixelCount view.width view.height
  exact Shot.keptOver_of_full (Pattern.length_pixels view frameId) hcount hcount old

theorem of_drawn {shot : Shot} (hshot : shot.Drawn width height) (recording : Bool)
    (rate : Binary64) (old : Bytes) :
    ((shot.stamped recording rate).keptOver (width.toNat * height.toNat) old).Intact
      width height := by
  have hkept : ∀ before, (shot.stamped recording rate).keptOver (width.toNat * height.toNat)
      before = ⟨(shot.stamped recording rate).header, shot.data⟩ := fun _ => kept_eq hshot
  have hdrawn := hshot
  rcases hshot with ⟨view, frameId, clock, rfl, rfl, rfl⟩
  have hcount := toNat_pixelCount view.width view.height
  rw [hkept old]
  constructor
  · rfl
  · rfl
  · exact hcount
  · exact hcount
  · exact Pattern.length_pixels view frameId
  · exact ⟨_, recording, rate, hdrawn, rfl, rfl, hkept⟩

end Frame.Intact

/-! ## Image files -/

namespace ImageWriter

/-- There is a file for all the pixels of every image of one pixel at least that has no
more than 65535 of them in a row or column, in whatever format. -/
def Dependable (writer : ImageWriter) : Prop :=
  ∀ format width height pixels, 0 < width → width ≤ 65535 → 0 < height → height ≤ 65535 →
    pixels.length = width * height →
    writer format width height pixels = .ok (.image format width height pixels)

theorem dependable_plain : plain.Dependable := by
  intro format width height pixels hwidth hwide hheight hhigh _
  have hlimit : 65535 ≤ sideLimit format := by cases format <;> decide
  have hfits : (0 < width && 0 < height && width ≤ sideLimit format &&
      height ≤ sideLimit format) = true := by
    simp only [Bool.and_eq_true, decide_eq_true_eq]
    omega
  exact if_pos hfits

end ImageWriter

namespace Frame.Intact

variable {width height : UInt32} {f : Frame}

/-- The image of an intact frame is what the writer makes of all its pixels. -/
theorem image (h : f.Intact width height) (format : ImageFormat) (writer : ImageWriter) :
    format.image writer f.header f.payload =
      (writer format width.toNat height.toNat f.payload).mapError .codec := by
  have hw : f.header.width.toNat = width.toNat := by rw [h.wide, UInt32.toNat_toUInt64]
  have hh : f.header.height.toNat = height.toNat := by rw [h.high, UInt32.toNat_toUInt64]
  have hneeded : f.header.pixelCount.toNat = f.payload.length := by
    rw [Header.pixelCount, h.wide, h.high, toNat_pixelCount, h.length]
  have hwidth := width.toNat_lt
  have hheight := height.toNat_lt
  unfold ImageFormat.image
  dsimp only
  rw [hw, hh, hneeded, if_neg (Nat.not_le_of_lt hwidth), if_neg (Nat.not_le_of_lt hheight),
    if_neg (Nat.lt_irrefl _), List.take_length]

end Frame.Intact

/-! ## The camera -/

namespace PatternCamera

variable {width height : UInt32} {c c' : PatternCamera}

/-- The settings that the acquisition has seen are of a size. -/
def Sees (width height : UInt32) : Pattern.Phase → Prop
  | .waiting view => view.width = width ∧ view.height = height
  | .drawing view _ => view.width = width ∧ view.height = height
  | .checking => True
  | .ended => True

/-- The camera draws pictures of a size. -/
structure Sized (width height : UInt32) (c : PatternCamera) : Prop where
  wide : c.settings.width = width
  high : c.settings.height = height
  sees : ∀ a, c.acquisition = some a → Sees width height a.phase

/-- An acquisition that goes on, with all else as it was. -/
theorem Sized.acquiring (h : c.Sized width height) {a : Pattern.Acquisition}
    (hsees : Sees width height a.phase) (captured : UInt64) :
    Sized width height { c with captured, acquisition := some a } := by
  constructor
  · exact h.wide
  · exact h.high
  · intro other hother
    rw [← Option.some.inj hother]
    exact hsees

theorem Sized.goTo (h : c.Sized width height) (a : Pattern.Acquisition) {phase : Pattern.Phase}
    (hsees : Sees width height phase) : (c.goTo a phase).Sized width height :=
  h.acquiring hsees c.captured

/-- A move of the acquisition delivers a picture of the size, if any. -/
theorem Sized.move (h : c.Sized width height) {m : Move} {shot : Option Shot}
    (hmove : c.move m = some (c', shot)) :
    c'.Sized width height ∧ ∀ s, shot = some s → s.Drawn width height := by
  have hnothing : ∀ s : Shot, none = some s → s.Drawn width height := by
    intro s hs
    cases hs
  obtain ⟨a, ha, hmoved⟩ := moved_of_move hmove
  have hsees := h.sees a ha
  cases hmoved with
  | looked hphase hgoing => exact ⟨h.goTo a ⟨h.wide, h.high⟩, hnothing⟩
  | ended hstopping hphase => exact ⟨h.goTo a trivial, hnothing⟩
  | gaveUpWaiting view hphase hidle => exact ⟨h.goTo a trivial, hnothing⟩
  | began view hphase hpaid hgoing =>
    -- what it draws next has the settings that it waited with
    rw [hphase] at hsees
    exact ⟨h.acquiring hsees _, hnothing⟩
  | delivered view frameId hphase hwide =>
    -- the picture is drawn with the settings that were seen, not with those of now
    rw [hphase] at hsees
    refine ⟨h.goTo a trivial, ?_⟩
    intro s hs
    rw [← Option.some.inj hs]
    exact ⟨view, frameId, c.clock, hsees.1, hsees.2, rfl⟩
  | failed view frameId hphase hwidth => exact ⟨h.goTo a trivial, hnothing⟩

theorem Sized.moves (h : c.Sized width height) (ms : List Move) :
    (c.moves ms).2.Sized width height ∧ ∀ s ∈ (c.moves ms).1, s.Drawn width height := by
  induction ms generalizing c with
  | nil =>
    refine ⟨h, ?_⟩
    intro s hs
    cases hs
  | cons m later ih =>
    unfold PatternCamera.moves
    split
    · exact ih h
    · next next delivered hmove =>
      rcases h.move hmove with ⟨hnext, hshot⟩
      rcases ih hnext with ⟨hlast, hlater⟩
      refine ⟨hlast, ?_⟩
      intro s hs
      rcases List.mem_append.mp hs with hnow | hrest
      · exact hshot s (Option.mem_toList.mp hnow)
      · exact hlater s hrest

/-! Calls of the camera's owner. -/

/-- A camera that draws pictures of the same size, and whose acquisition, if any, has
seen nothing yet or the same settings. -/
theorem Sized.same (h : c.Sized width height) (hwide : c'.settings.width = c.settings.width)
    (hhigh : c'.settings.height = c.settings.height)
    (hphase : ∀ a', c'.acquisition = some a' →
      a'.phase = .checking ∨ ∃ a, c.acquisition = some a ∧ a'.phase = a.phase) :
    c'.Sized width height := by
  constructor
  · rw [hwide]
    exact h.wide
  · rw [hhigh]
    exact h.high
  · intro a' ha'
    rcases hphase a' ha' with hchecking | ⟨a, ha, hsame⟩
    · rw [hchecking]
      trivial
    · rw [hsame]
      exact h.sees a ha

/-- Other settings of the same size are seen by the next frame. -/
theorem Sized.withSettings (h : c.Sized width height) {settings : Settings}
    (hwide : settings.width = c.settings.width) (hhigh : settings.height = c.settings.height) :
    Sized width height { c with settings } := by
  apply h.same hwide hhigh
  intro a ha
  exact .inr ⟨a, ha, rfl⟩

theorem Sized.withClock (h : c.Sized width height) (clock : UInt64) :
    Sized width height { c with clock } := by
  refine h.same rfl rfl ?_
  intro a ha
  exact .inr ⟨a, ha, rfl⟩

theorem Sized.withoutAcquisition (h : c.Sized width height) (configured : Bool) :
    Sized width height { c with acquisition := none, configured } := by
  refine h.same rfl rfl ?_
  intro a ha
  cases ha

theorem Sized.start (h : c.Sized width height) : c.start.2.Sized width height := by
  unfold PatternCamera.start
  split
  · exact h
  · split
    · exact h
    · refine h.same rfl rfl ?_
      intro a ha
      rw [← Option.some.inj ha]
      exact .inl rfl

/-- A camera that streams is not started again. -/
theorem idle_of_start (hstart : c.start.1 = .ok ()) : c.acquisition = none := by
  unfold PatternCamera.start at hstart
  split at hstart
  · cases hstart
  · split at hstart
    · cases hstart
    · next hidle =>
      rw [Option.isSome_iff_ne_none, Decidable.not_not] at hidle
      exact hidle

theorem Sized.trigger (h : c.Sized width height) : c.trigger.2.Sized width height := by
  unfold PatternCamera.trigger
  split
  · exact h
  · split
    · next a hacquisition =>
      refine h.acquiring ?_ c.captured
      exact h.sees a hacquisition
    · exact h

theorem Sized.requestStop (h : c.Sized width height) : c.requestStop.Sized width height := by
  refine h.same rfl rfl ?_
  intro a' ha'
  rcases Option.map_eq_some_iff.mp ha' with ⟨a, ha, hsame⟩
  right
  refine ⟨a, ha, ?_⟩
  rw [← hsame]

theorem Sized.join (h : c.Sized width height) (hjoin : c.join? = some c') :
    c'.Sized width height := by
  obtain ⟨rfl, -⟩ := of_join? hjoin
  exact h.withoutAcquisition c.configured

/-- Stopping delivers pictures of the size, if any. -/
theorem Sized.stop (h : c.Sized width height) :
    c.stop.2.2.Sized width height ∧ ∀ s ∈ c.stop.2.1, s.Drawn width height := by
  rcases h.requestStop.moves lastMoves with ⟨hlast, hlate⟩
  exact ⟨hlast.withoutAcquisition _, hlate⟩

theorem Sized.shutdown (h : c.Sized width height) : c.shutdown.2.Sized width height := by
  have hstopped := h.stop.1
  refine hstopped.same rfl rfl ?_
  intro a ha
  exact .inr ⟨a, ha, rfl⟩

/-- A camera that takes a configuration while it does not stream draws pictures of the
configured size, which the sensor can take. -/
theorem sized_of_configure {config : CaptureConfig} {limits : SensorLimits}
    (hidle : c'.acquisition = none) (hconfigure : c.configure config = (.ok limits, c')) :
    c'.Sized config.width config.height ∧
      limits.width = config.width ∧ limits.height = config.height ∧
      config.width.toNat ≤ Pattern.sensorSide.toNat ∧
      config.height.toNat ≤ Pattern.sensorSide.toNat := by
  unfold PatternCamera.configure at hconfigure
  split at hconfigure
  · cases hconfigure
  · next hfits =>
    cases hconfigure
    rw [Bool.or_eq_true, decide_eq_true_eq, decide_eq_true_eq, not_or] at hfits
    refine ⟨⟨rfl, rfl, ?_⟩, rfl, rfl, ?_, ?_⟩
    · intro a ha
      rw [hidle] at ha
      cases ha
    · exact Nat.le_of_not_lt hfits.1
    · exact Nat.le_of_not_lt hfits.2

end PatternCamera

end FrameServer
