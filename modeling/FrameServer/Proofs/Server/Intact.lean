import FrameServer.Proofs.Broadcast.Seating
import FrameServer.Proofs.Capture.Drawn
import FrameServer.Proofs.Recording.Desk
import FrameServer.Server.Running

/-!
# FrameServer.Proofs.Server.Intact — no frame is cut or filled up

The camera draws pictures of the configured size, the places of the ring are made for
pictures of that size, and the image files want pictures of the size that the header
tells. Each of them works out the size for itself. They agree: whatever happens to a
server that was started, every frame of its ring is a whole picture, and so is every
frame on the wire or on its way to the disk.

1. **The ring** takes in pictures.
2. **Stations**: what calls and commands do.
3. **The logger** has its frames from the ring.
4. **Wires** of the connections.
5. **Servers**: what every act keeps.
6. **Starting**: a server begins without frames, with parts that agree on a size.
7. **Whole pictures**
-/

namespace FrameServer

/-! ## The ring -/

/-- The places of a ring are for pictures of a size, and it holds such pictures only. -/
def Ring.Intact (width height : UInt32) (r : Ring) : Prop :=
  ∃ bound, r.Holds (Frame.Intact width height) bound (width.toNat * height.toNat)

theorem Ring.intact_empty (requested : Nat) (width height : UInt32) :
    (Ring.empty requested width height).Intact width height :=
  ⟨_, .empty _ requested width height⟩

/-- A picture that arrives is kept whole. -/
theorem Exchange.push_intact {width height : UInt32} {x : Exchange} {shot : Shot}
    (h : x.ring.Intact width height) (hshot : shot.Drawn width height) (now : Nat)
    (rate : RateEstimate) : (x.push now shot rate).2.ring.Intact width height := by
  rcases h with ⟨bound, hring⟩
  refine ⟨bound, ?_⟩
  have hput := hring.put (Frame.Intact.of_drawn hshot x.recording.enabled (rate.tick now).rate)
  exact hput

theorem Exchange.pushAll_intact {width height : UInt32} {x : Exchange} {shots : List Shot}
    (h : x.ring.Intact width height) (hshots : ∀ shot ∈ shots, shot.Drawn width height)
    (now : Nat) (rate : RateEstimate) :
    (x.pushAll now shots rate).2.ring.Intact width height := by
  induction shots generalizing x rate with
  | nil => exact h
  | cons shot later ih =>
    have hpush := x.push_intact h (hshots shot List.mem_cons_self) now rate
    apply ih hpush
    intro other hother
    exact hshots other (List.mem_cons_of_mem shot hother)

/-! ## Stations -/

namespace Station

variable {width height : UInt32} {s : Station PatternCamera}

/-- The camera draws pictures of a size into a ring for them. -/
structure Intact (width height : UInt32) (s : Station PatternCamera) : Prop where
  camera : s.camera.Sized width height
  ring : s.exchange.ring.Intact width height

namespace Intact

theorem takeIn (h : s.Intact width height) {shots : List Shot}
    (hshots : ∀ shot ∈ shots, shot.Drawn width height) (now : Nat) :
    (s.takeIn now shots).Intact width height := by
  constructor
  · exact h.camera
  · exact s.exchange.pushAll_intact h.ring hshots now s.rate

theorem withCamera (h : s.Intact width height) {camera : PatternCamera}
    (hcamera : camera.Sized width height) : Intact width height { s with camera } := by
  constructor
  · exact hcamera
  · exact h.ring

theorem withRecording (h : s.Intact width height) (recording : Recording) :
    (s.withRecording recording).Intact width height := by
  constructor
  · exact h.camera
  · exact h.ring

theorem startImaging (h : s.Intact width height) : s.startImaging.2.Intact width height := by
  have hstart := h.camera.start
  unfold Station.startImaging
  dsimp only
  split
  · exact ⟨hstart, h.ring⟩
  · exact ⟨hstart, h.ring⟩

theorem stopImaging (h : s.Intact width height) (now : Nat) :
    (s.stopImaging now).2.Intact width height := by
  rcases h.camera.stop with ⟨hcamera, hlate⟩
  exact (h.withCamera hcamera).takeIn hlate now

theorem snap (h : s.Intact width height) (wall : WallTime) :
    (s.snap wall).2.Intact width height := by
  unfold Station.snap
  dsimp only
  split
  · exact h.withRecording _
  · have htriggered := (h.withRecording (s.exchange.recording.requestSnap s.settings wall).2)
      |>.withCamera h.camera.trigger
    split
    · exact htriggered
    · exact htriggered.withRecording _

/-- No command makes the camera draw pictures of another size. -/
theorem control (h : s.Intact width height) (wall : WallTime) (now : Nat) (command : Command) :
    (command.apply (Station.control wall now) s).2.Intact width height := by
  cases command with
  | enableRecording => exact h.withRecording _
  | disableRecording => exact h.withRecording _
  | setGain gain => exact h.withCamera (h.camera.withSettings rfl rfl)
  | setExposure exposure => exact h.withCamera (h.camera.withSettings rfl rfl)
  | stopImaging => exact h.stopImaging now
  | exit =>
    have hstopped := h.stopImaging now
    exact ⟨hstopped.camera, hstopped.ring⟩
  | snap => exact h.snap wall

end Intact

end Station

/-! ## The logger -/

namespace Logger

variable {encoder : Encoder} {now : WallTime} {l l' : Logger} {x x' : Exchange}

/-- The ring gives up its oldest frame at most, and a job that is new in the hands of a
worker has this frame. -/
structure Drew (l : Logger) (x : Exchange) (l' : Logger) (x' : Exchange) : Prop where
  ring : x'.ring = x.ring ∨ x'.ring = x.ring.get?.2
  handed : ∀ job ∈ l'.handed, job ∈ l.handed ∨ x.ring.get?.1 = some job.frame

/-- A frame is handed to a worker, if to anybody. -/
theorem handle_handed (encoder : Encoder) (handOff : Bool) (now : WallTime) (frame : Frame)
    (l : Logger) (x : Exchange) :
    (handle encoder handOff now frame l x).2.ring = x.ring ∧
      ∀ job ∈ (handle encoder handOff now frame l x).1.handed,
        job ∈ l.handed ∨ job.frame = frame := by
  obtain ⟨-, -, hhanded, hring, -⟩ := (handle_passed encoder handOff now frame l x).kept
  refine ⟨hring, ?_⟩
  intro job hjob
  rcases hhanded with hsame | ⟨new, hnew, hmore⟩
  · rw [hsame] at hjob
    exact .inl hjob
  · rw [hmore, List.mem_append, List.mem_singleton] at hjob
    rcases hjob with hold | rfl
    · exact .inl hold
    · exact .inr (frame_of_jobFor? frame hnew)

theorem move_drew {m : Move} (hmove : l.move encoder now m x = some (l', x')) :
    Drew l x l' x' := by
  have hsame : ∀ job ∈ l.handed, job ∈ l.handed ∨ x.ring.get?.1 = some job.frame := by
    intro job hjob
    exact .inl hjob
  unfold move at hmove
  cases m with
  | check =>
    dsimp only at hmove
    split at hmove
    · cases hmove
    · cases hmove
      exact ⟨.inl rfl, hsame⟩
  | take handOff =>
    dsimp only at hmove
    split at hmove
    · cases hmove
    · split at hmove
      · cases hmove
      · next frame ring hget =>
        generalize (if l.phase = .flushing then Phase.flushing else .checking) = phase at hmove
        rcases handle_handed encoder handOff now frame { l with phase } { x with ring } with
          ⟨hring, hhanded⟩
        rw [Option.some.inj hmove] at hring hhanded
        constructor
        · right
          rw [hget]
          exact hring
        · intro job hjob
          rcases hhanded job hjob with hold | hnew
          · exact .inl hold
          · rw [hget, hnew]
            exact .inr rfl
  | timeOut =>
    dsimp only at hmove
    split at hmove
    · split at hmove
      · cases hmove
        exact ⟨.inl rfl, hsame⟩
      · cases hmove
        exact ⟨.inl rfl, hsame⟩
      · cases hmove
    · cases hmove
  | finish index =>
    dsimp only at hmove
    split at hmove
    · cases hmove
    · next job hjob =>
      cases hmove
      refine ⟨.inl rfl, ?_⟩
      intro other hother
      exact .inl (List.mem_of_mem_eraseIdx hother)

end Logger

/-! ## Wires -/

namespace Service

variable {P : Bytes → Prop} {s s' : Service}

/-- Every wire that is still to be sent has the property. -/
def Carries (P : Bytes → Prop) (s : Service) : Prop :=
  ∀ (seat : Fin maxPeers) p, s.frameSeats.get seat = some p → ∀ wire ∈ p.pending, P wire

namespace Carries

theorem nothing (P : Bytes → Prop) (hseats : s.frameSeats = .empty) : s.Carries P := by
  intro seat p hp
  have hnone : Seats.empty.get seat = none := Vector.getElem_replicate seat.isLt
  rw [hseats, hnone] at hp
  cases hp

theorem tick (h : s.Carries P) (now : Nat) {newest : Option Frame}
    (hnewest : ∀ f : Frame, newest = some f → P f.toBytes) : (s.tick now newest).Carries P := by
  unfold Service.tick
  split
  · cases newest with
    | none => exact h
    | some frame =>
      dsimp only
      unfold Service.publish
      split
      · exact h
      · -- every connection has the wire of the frame beside those that it had
        intro seat p' hp' wire hwire
        have hget : ((s.frameSeats.get seat).map fun p => p.arm now (frame.writeOver [])) =
            some p' := by
          rw [← hp']
          exact (Seats.get_map _ s.frameSeats seat).symm
        rcases Option.map_eq_some_iff.mp hget with ⟨p, hp, hsame⟩
        rw [← hsame] at hwire
        rcases Peer.of_mem_pending_arm hwire with hnew | hold
        · rw [hnew]
          exact hnewest frame rfl
        · exact h seat p hp wire hold
  · exact h

theorem dropStalled (h : s.Carries P) (now : Nat) :
    Carries P { s with frameSeats := s.frameSeats.dropStalled s.writeTimeout now } := by
  intro seat p hp
  have hget : ((s.frameSeats.get seat).filter fun p => !p.stalled s.writeTimeout now) =
      some p := by
    rw [← hp]
    exact (Seats.get_map _ s.frameSeats seat).symm
  exact h seat p (Option.filter_eq_some_iff.mp hget).1

theorem onlySeat (h : s.Carries P) {role : Role} {seat : Fin maxPeers}
    (honly : OnlySeat role seat s s') : s'.Carries P := by
  intro i p' hp' wire hwire
  by_cases hsame : (Role.frame, i) = (role, seat)
  · cases hsame
    rcases honly.own p' hp' with ⟨p, hp, -, hpending⟩
    exact h _ p hp wire (hpending hwire)
  · have hother := honly.others .frame i hsame
    exact h i p' (hother.symm.trans hp') wire hwire

theorem welcomed (h : s.Carries P) {role : Role} {now : Nat} {usable : Bool}
    (hw : Welcomed role now usable s s') : s'.Carries P := by
  cases hw with
  | rejected hfull => exact h
  | unusable hroom husable => exact h
  | seated seat husable hfree hlowest =>
    intro i p hp wire hwire
    rcases of_get_joined .frame hp with ⟨-, -, hnew⟩ | hold
    · -- nothing is to be sent to a new connection
      rw [hnew] at hwire
      cases hwire
    · exact h i p hold wire hwire

theorem accepted (h : s.Carries P) {role : Role} {now : Nat} {outcomes : List AcceptOutcome}
    (ha : Accepted role now outcomes s s') : s'.Carries P := by
  induction ha with
  | done => exact h
  | connection hfirst hlater ih => exact ih (h.welcomed hfirst)
  | interrupted hlater ih => exact ih h
  | failed => exact h

theorem serve {σ : Type} (h : s.Carries P) (control : Control σ) (now : Nat) (event : Event)
    (world : σ) : (s.serve control now event world).2.1.Carries P := by
  cases event with
  | listener role outcomes => exact h.accepted (s.accept_accepted role now outcomes)
  | frame seat id ready read writes => exact h.onlySeat (.serveFrame s seat id ready read writes)
  | command seat id ready read =>
    exact h.onlySeat (.serveCommand control s seat id ready read world)

end Carries

/-- What every command keeps is kept by the service. -/
theorem serve_world {σ : Type} {Q : σ → Prop} {control : Control σ}
    (hcontrol : ∀ command world, Q world → Q (Command.apply control command world).2) {world : σ}
    (hworld : Q world) (now : Nat) (event : Event) (s : Service) :
    Q (s.serve control now event world).2.2 := by
  have hanswer : ∀ text, Q (answer control text world).2 := by
    intro text
    unfold answer
    dsimp only
    split
    · exact hworld
    · next command hparse =>
      have hnext := hcontrol command world hworld
      split
      · next after hdone =>
        rw [hdone] at hnext
        exact hnext
      · next e after hdone =>
        rw [hdone] at hnext
        exact hnext
  cases event with
  | listener role outcomes => exact hworld
  | frame seat id ready read writes => exact hworld
  | command seat id ready read =>
    show Q (s.serveCommand control seat id ready read world).2.2
    unfold serveCommand
    split
    · unfold handleCommand
      split
      · exact hworld
      · split
        · exact hanswer _
        · exact hworld
    · split
      · exact hworld
      · exact hworld

end Service

/-! ## Servers -/

namespace Server.Closing

variable {config : Config} {writer : ImageWriter} {c c' : Closing}

/-- A frame of the configured size. -/
def Fits (config : Config) (f : Frame) : Prop :=
  f.Intact config.capture.width config.capture.height

/-- Every frame that the parts of a server have is intact. -/
structure Intact (config : Config) (writer : ImageWriter) (c : Closing) : Prop where
  station : c.server.station.Intact config.capture.width config.capture.height
  handed : ∀ job ∈ c.server.logger.handed, Fits config job.frame
  carries : c.server.service.Carries fun wire => ∃ f, Fits config f ∧ wire = f.toBytes
  encoder : c.server.encoder = config.recording.imageFormat.encoder writer

namespace Intact

theorem withStation (h : c.Intact config writer) {station : Station PatternCamera}
    (hstation : station.Intact config.capture.width config.capture.height) :
    (c.withStation station).Intact config writer := by
  constructor
  · exact hstation
  · exact h.handed
  · exact h.carries
  · exact h.encoder

theorem withCamera (h : c.Intact config writer) {camera : PatternCamera}
    (hcamera : camera.Sized config.capture.width config.capture.height) :
    (c.withCamera camera).Intact config writer :=
  h.withStation (h.station.withCamera hcamera)

theorem withService (h : c.Intact config writer) {service : Service}
    (hservice : service.Carries fun wire => ∃ f, Fits config f ∧ wire = f.toBytes) :
    (c.withService service).Intact config writer := by
  constructor
  · exact h.station
  · exact h.handed
  · exact hservice
  · exact h.encoder

theorem acquire (h : c.Intact config writer) {now : Nat} {m : PatternCamera.Move}
    (hmove : c.acquire now m = some c') : c'.Intact config writer := by
  unfold Closing.acquire at hmove
  rcases Option.map_eq_some_iff.mp hmove with ⟨⟨camera, shot⟩, hcamera, rfl⟩
  rcases h.station.camera.move hcamera with ⟨hsized, hshot⟩
  apply h.withStation
  apply (h.station.withCamera hsized).takeIn
  intro s hs
  exact hshot s (Option.mem_toList.mp hs)

/-- The ring then shows the picture as it was delivered. -/
theorem acquire_shown (h : c.Intact config writer) {m : PatternCamera.Move} {camera : PatternCamera}
    {shot : Shot} (hcamera : c.server.station.camera.move m = some (camera, some shot))
    (now : Nat) : ∃ c' recording rate, c.acquire now m = some c' ∧
      c'.server.station.exchange.ring.peekLatest? =
        some ⟨(shot.stamped recording rate).header, shot.data⟩ := by
  have hdrawn := (h.station.camera.move hcamera).2 shot rfl
  rcases h.station.ring with ⟨bound, q, hring, -⟩
  generalize hrate : (c.server.station.rate.tick now).rate = rate
  generalize hrecording : c.server.station.exchange.recording.enabled = recording
  have hmove : ∃ c', c.acquire now m = some c' ∧ c'.server.station.exchange.ring =
      c.server.station.exchange.ring.put (shot.stamped recording rate).header shot.data := by
    unfold Closing.acquire
    rw [hcamera, ← hrate, ← hrecording]
    exact ⟨_, rfl, rfl⟩
  rcases hmove with ⟨c', hacquire, hput⟩
  have hkept := c.server.station.exchange.ring.deposit_eq (shot.stamped recording rate)
  rw [hring.slotLength, Frame.Intact.kept_eq hdrawn] at hkept
  refine ⟨c', recording, rate, hacquire, ?_⟩
  rw [hput, Ring.put_peekLatest?]
  exact congrArg some hkept

theorem log (h : c.Intact config writer) {wall : WallTime} {m : Logger.Move}
    (hmove : c.log wall m = some c') : c'.Intact config writer := by
  unfold Closing.log at hmove
  rcases Option.map_eq_some_iff.mp hmove with ⟨⟨logger, exchange⟩, hlogger, rfl⟩
  have hdrew := Logger.move_drew hlogger
  rcases h.station.ring with ⟨bound, hring⟩
  rcases hring.get with ⟨holdest, hrest⟩
  constructor
  · refine ⟨h.station.camera, bound, ?_⟩
    rcases hdrew.ring with hsame | htaken
    · show exchange.ring.Holds _ _ _
      rw [hsame]
      exact hring
    · show exchange.ring.Holds _ _ _
      rw [htaken]
      exact hrest
  · intro job hjob
    rcases hdrew.handed job hjob with hold | hnew
    · exact h.handed job hold
    · exact holdest job.frame hnew
  · exact h.carries
  · exact h.encoder

theorem advance (h : c.Intact config writer) (hmove : c.advance = some c') :
    c'.Intact config writer := by
  have hcamera := h.station.camera
  unfold Closing.advance at hmove
  split at hmove
  · cases hmove
    exact ⟨⟨hcamera, h.station.ring⟩, h.handed, h.carries, h.encoder⟩
  · cases hmove
    exact ⟨h.station, h.handed, .nothing _ rfl, h.encoder⟩
  · cases hmove
    have hstopping := h.withCamera hcamera.requestStop
    exact ⟨hstopping.station, hstopping.handed, hstopping.carries, hstopping.encoder⟩
  · rcases Option.map_eq_some_iff.mp hmove with ⟨camera, hjoin, rfl⟩
    have hjoined := h.withCamera (hcamera.join hjoin)
    exact ⟨hjoined.station, hjoined.handed, hjoined.carries, hjoined.encoder⟩
  · split at hmove
    · cases hmove
      exact ⟨h.station, h.handed, h.carries, h.encoder⟩
    · cases hmove
  · cases hmove
    have hreleased := h.withCamera hcamera.shutdown
    exact ⟨hreleased.station, hreleased.handed, hreleased.carries, hreleased.encoder⟩
  · cases hmove

theorem move (h : c.Intact config writer) {wall : WallTime} {now : Nat} {m : Move}
    (hmove : c.move wall now m = some c') : c'.Intact config writer := by
  cases m with
  | acquisition m => exact h.acquire hmove
  | logger m => exact h.log hmove
  | closer => exact h.advance hmove

/-- Whatever happens next, no frame is cut or filled up. -/
theorem act (h : c.Intact config writer) (wall : WallTime) (now : Nat) (a : Act) :
    (c.act wall now a).Intact config writer := by
  have hcamera := h.station.camera
  cases a with
  | pass clock => exact h.withCamera (hcamera.withClock clock)
  | move m =>
    show ((c.move wall now m).getD c).Intact config writer
    cases hmove : c.move wall now m with
    | none => exact h
    | some c' => exact h.move hmove
  | publish time =>
    apply h.withService
    apply h.carries.tick
    intro f hf
    rcases h.station.ring with ⟨bound, hring⟩
    exact ⟨f, hring.latest f hf, rfl⟩
  | serve time event =>
    have hserved := h.withService (h.carries.serve (Station.control wall now) time event
      c.server.station)
    apply hserved.withStation
    apply Service.serve_world _ h.station
    intro command station hstation
    exact hstation.control wall now command
  | sweep time => exact h.withService (h.carries.dropStalled time)
  | call command => exact h.withStation (h.station.control wall now command)
  | startImaging => exact h.withStation h.station.startImaging
  | setOffsets x y =>
    apply h.withStation
    exact h.station.withCamera (hcamera.withSettings rfl rfl)
  | requestStop => exact h.withCamera hcamera.requestStop
  | join =>
    unfold Closing.act
    dsimp only
    split
    · next camera hjoin => exact h.withCamera (hcamera.join hjoin)
    · exact h

theorem run (h : c.Intact config writer) (occasions : List Occasion) :
    (c.run occasions).Intact config writer := by
  induction occasions generalizing c with
  | nil => exact h
  | cons o later ih => exact ih (h.act o.wall o.now o.act)

end Intact

end Server.Closing

/-! ## Starting -/

/-- The server that was started. -/
def StartResult.server? {κ : Type} : StartResult κ → Option (Server κ)
  | .started server => some server
  | .failed _ _ _ _ => none

namespace Server

variable {world : Surroundings} {config : Config} {platform : Platform}
  {server : Server PatternCamera}

/-- A ring that could be created has places for frames of one pixel at least. -/
theorem size_pos_of_create {requested limit : Nat} {width height : UInt32} {r : Ring}
    (hcreate : Ring.create requested width height limit = .ok r) :
    0 < width.toNat ∧ 0 < height.toNat := by
  unfold Ring.create at hcreate
  dsimp only at hcreate
  split at hcreate
  · cases hcreate
  · next hsize =>
    rw [Bool.or_eq_true, beq_iff_eq, beq_iff_eq, not_or] at hsize
    constructor
    · apply Nat.pos_of_ne_zero
      intro hzero
      exact hsize.1 (UInt32.toNat_inj.mp hzero)
    · apply Nat.pos_of_ne_zero
      intro hzero
      exact hsize.2 (UInt32.toNat_inj.mp hzero)

/-- A server is assembled around a station without frames. -/
theorem intact_of_assemble {station : Station PatternCamera}
    (hstation : station.Intact config.capture.width config.capture.height)
    (hstart : assemble world config station platform = .started server) :
    Closing.Intact config platform.imageWriter ⟨server, .serving⟩ := by
  unfold assemble at hstart
  split at hstart
  · cases hstart
  · have himaging := hstation.startImaging
    unfold begin at hstart
    dsimp only at hstart
    split at hstart
    · next after hafter =>
      cases hstart
      rw [hafter] at himaging
      refine ⟨himaging, ?_, .nothing _ rfl, rfl⟩
      intro job hjob
      cases hjob
    · unfold abandon at hstart
      cases hstart

/-- Only a camera that did not stream is started. -/
theorem idle_of_assemble {station : Station PatternCamera}
    (hstart : assemble world config station platform = .started server) :
    station.camera.acquisition = none := by
  unfold assemble at hstart
  split at hstart
  · cases hstart
  · unfold begin Station.startImaging at hstart
    dsimp only at hstart
    split at hstart
    · next after hafter =>
      split at hafter
      · next hstarted => exact PatternCamera.idle_of_start hstarted
      · cases hafter
    · unfold abandon at hstart
      cases hstart

/-- Whether or not recording was switched on, the server was assembled with the same
camera and the same ring. -/
theorem assemble_of_prepare {station : Station PatternCamera}
    (hstart : prepare world config station platform = .started server) :
    ∃ recording,
      assemble world config (station.withRecording recording) platform = .started server := by
  unfold prepare at hstart
  split at hstart
  · split at hstart
    · cases hstart
    · next after hset =>
      have hsame : after = station.withRecording _ := (congrArg Prod.snd hset).symm
      rw [hsame] at hstart
      exact ⟨_, hstart⟩
  · exact ⟨station.exchange.recording, hstart⟩

/-- A server that was started has a camera, a ring and an encoder for frames of the
configured size, which is one that a sensor can have. -/
theorem intact_of_start {camera : PatternCamera}
    (hstart : start world config camera platform = .started server) :
    Closing.Intact config platform.imageWriter ⟨server, .serving⟩ ∧
      (0 < config.capture.width.toNat ∧ config.capture.width ≤ Pattern.sensorSide) ∧
      0 < config.capture.height.toNat ∧ config.capture.height ≤ Pattern.sensorSide := by
  unfold start at hstart
  split at hstart
  · cases hstart
  · next limits configured hconfigure =>
    split at hstart
    · cases hstart
    · next ring hring =>
      split at hstart
      · cases hstart
      · next recording hrecording =>
        rcases assemble_of_prepare hstart with ⟨after, hassemble⟩
        -- configuring does not stop a camera that streams, but then it is not started
        have hidle : configured.acquisition = none := idle_of_assemble hassemble
        rcases PatternCamera.sized_of_configure hidle hconfigure with
          ⟨hsized, hwidth, hheight, hwide, hhigh⟩
        rw [hwidth, hheight] at hring
        rcases size_pos_of_create hring with ⟨hcolumns, hrows⟩
        have hempty : ring.Intact config.capture.width config.capture.height := by
          rw [Ring.create_eq_empty hring]
          exact Ring.intact_empty _ _ _
        have hstation : (Station.new configured ⟨ring, recording, false⟩).Intact
            config.capture.width config.capture.height := ⟨hsized, hempty⟩
        refine ⟨?_, ⟨hcolumns, hwide⟩, hrows, hhigh⟩
        exact intact_of_assemble (hstation.withRecording after) hassemble

/-! ## Whole pictures -/

/-- Every frame of a server is a whole picture of the configured size: those that wait in
the ring, the one that it shows and the one that it gives next, those that are on their
way to the disk, and those on the wire. An image file of each of them is what the writer
makes of its pixels, and there is one if the writer is dependable. A picture that is
delivered is shown by the ring as it is. -/
structure Whole (config : Config) (writer : ImageWriter) (c : Closing) : Prop where
  delivered : ∀ now m camera shot, c.server.station.camera.move m = some (camera, some shot) →
    ∃ c' recording rate, c.acquire now m = some c' ∧
      c'.server.station.exchange.ring.peekLatest? =
        some ⟨(shot.stamped recording rate).header, shot.data⟩
  waiting : ∀ f ∈ c.server.station.exchange.ring.waiting, Closing.Fits config f
  shown : ∀ f, c.server.station.exchange.ring.peekLatest? = some f → Closing.Fits config f
  given : ∀ f, c.server.station.exchange.ring.get?.1 = some f → Closing.Fits config f
  handed : ∀ job ∈ c.server.logger.handed, Closing.Fits config job.frame
  wires : ∀ (seat : Fin maxPeers) p, c.server.service.frameSeats.get seat = some p →
    ∀ wire ∈ p.pending, ∃ f, Closing.Fits config f ∧ wire = f.header.toBytes ++ f.payload
  checked : ∀ f, Closing.Fits config f → ∀ path number,
    c.server.encoder.encode path number f.header f.payload =
      (writer config.recording.imageFormat config.capture.width.toNat
        config.capture.height.toNat f.payload).mapError fun reason => .encode path (.codec reason)
  images : writer.Dependable → ∀ f, Closing.Fits config f → ∀ path number,
    c.server.encoder.encode path number f.header f.payload =
      .ok (.image config.recording.imageFormat config.capture.width.toNat
        config.capture.height.toNat f.payload)

/-- However large its ring became, and whatever has happened since, a server that was
started with a pattern camera has whole pictures of the configured size only. -/
theorem frames_whole {camera : PatternCamera}
    (hstart : start world config camera platform = .started server)
    (occasions : List Closing.Occasion) :
    Whole config platform.imageWriter (Closing.run ⟨server, .serving⟩ occasions) := by
  rcases intact_of_start hstart with ⟨hintact, ⟨hcolumns, hwide⟩, hrows, hhigh⟩
  have hrun := hintact.run occasions
  rcases hrun.station.ring with ⟨bound, hring⟩
  have hchecked : ∀ f, Closing.Fits config f → ∀ path number,
      (Closing.run ⟨server, .serving⟩ occasions).server.encoder.encode path number f.header
          f.payload =
        (platform.imageWriter config.recording.imageFormat config.capture.width.toNat
          config.capture.height.toNat f.payload).mapError
            fun reason => .encode path (.codec reason) := by
    intro f hf path number
    rw [hrun.encoder]
    show (config.recording.imageFormat.image platform.imageWriter f.header f.payload).mapError _ = _
    rw [hf.image]
    cases platform.imageWriter _ _ _ f.payload <;> rfl
  constructor
  · intro now m camera shot hcamera
    exact hrun.acquire_shown hcamera now
  · exact hring.waiting
  · exact hring.latest
  · exact hring.get.1
  · exact hrun.handed
  · exact hrun.carries
  · exact hchecked
  · intro hwriter f hf path number
    have hside : Pattern.sensorSide.toNat ≤ 65535 := by decide
    have hfile := hwriter config.recording.imageFormat _ _ f.payload hcolumns
      (Nat.le_trans hwide hside) hrows (Nat.le_trans hhigh hside) hf.length
    rw [hchecked f hf, hfile]
    rfl

/-- A server for pictures of three by two pixels, with room for two of them and recording
on. -/
def smallConfig : Config where
  capture := { width := 3, height := 2 }
  buffer := { capacity := 2 }
  recording := { rootDir := "frames", enabled := true }

def smallSurroundings : Surroundings where
  freeMemory := none
  root := .folder [] []
  takenPorts := []
  wall := 0
  now := 0

/-- A connection comes, the camera takes four pictures, the first of which is published
and the second of which goes to a worker; the third one waits with the fourth one. -/
def fourPictures : List Closing.Occasion :=
  let shoot : List Closing.Act :=
    [.move (.acquisition .check), .move (.acquisition .wake), .move (.acquisition .deliver)]
  let acts : List Closing.Act :=
    [.serve 0 (.listener .frame [.connection true])] ++ shoot ++ [.publish 0] ++ shoot ++ shoot ++
      [.move (.logger .check), .move (.logger (.take true))] ++ shoot
  acts.map (⟨·, 0, 0⟩)

theorem whole_after_four_pictures :
    ∃ server, start smallSurroundings smallConfig PatternCamera.new = .started server ∧
      let c := Closing.run ⟨server, .serving⟩ fourPictures
      Whole smallConfig .plain c ∧
        (∀ f, Closing.Fits smallConfig f → ∀ path number,
          c.server.encoder.encode path number f.header f.payload =
            .ok (.image smallConfig.recording.imageFormat 3 2 f.payload)) ∧
        c.server.station.exchange.ring.waiting.map (·.header.frameId) = [3, 4] ∧
        c.server.logger.handed.map (·.frame.header.frameId) = [2] ∧
        (c.server.service.frameSeats.peers.flatMap Peer.pending).map List.length = [126] := by
  have hrun : ((start smallSurroundings smallConfig PatternCamera.new).server?.map fun server =>
      let c := Closing.run ⟨server, .serving⟩ fourPictures
      (c.server.station.exchange.ring.waiting.map (·.header.frameId),
        c.server.logger.handed.map (·.frame.header.frameId),
        (c.server.service.frameSeats.peers.flatMap Peer.pending).map List.length)) =
      some ([3, 4], [2], [126]) := by decide +kernel
  rcases Option.map_eq_some_iff.mp hrun with ⟨server, hserver, hlists⟩
  have hstart : start smallSurroundings smallConfig PatternCamera.new = .started server := by
    unfold StartResult.server? at hserver
    split at hserver
    · next started hstarted =>
      rw [hstarted, Option.some.inj hserver]
    · cases hserver
  rcases Prod.mk.inj hlists with ⟨hwaiting, hrest⟩
  rcases Prod.mk.inj hrest with ⟨hhanded, hwires⟩
  have hwhole := frames_whole hstart fourPictures
  have himages := hwhole.images ImageWriter.dependable_plain
  exact ⟨server, hstart, hwhole, himages, hwaiting, hhanded, hwires⟩

end Server

end FrameServer
