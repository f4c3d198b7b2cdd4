import FrameServer.Proofs.Capture.Calls

/-!
# FrameServer.Proofs.Capture.Delivery — the frames that a camera delivers

The owner of a camera makes one call after the other, and the acquisition moves on beside
them, also while a call waits for its end. Whatever the order, the frames are numbered
without a gap, none comes after the acquisition was ended, and a triggered acquisition
delivers no more frames than were asked for since it was started.

1. **Events** of a camera that can be watched.
2. **The ledger**: what may happen next, from what has happened.
3. **Laws** of the logs that a ledger can keep.
4. **Watching** a camera.
5. **The camera keeps to the ledger.**
6. **Delivery**
-/

namespace FrameServer.PatternCamera

open Pattern

/-! ## Events -/

/-- What those who watch a camera see of it. -/
inductive Event where
  | started (mode : Trigger)
  /-- A call for one frame succeeded. -/
  | asked
  /-- The acquisition took up a frame. -/
  | began
  | delivered (shot : Shot)
  /-- A call that ends the acquisition returned. -/
  | stopped
deriving DecidableEq, Repr

/-- The number of the frame that was delivered. -/
def Event.id? : Event → Option UInt64
  | delivered shot => some shot.header.frameId
  | _ => none

/-- The numbers of the frames that were delivered. -/
def ids (log : List Event) : List UInt64 := log.filterMap Event.id?

theorem ids_append (log later : List Event) : ids (log ++ later) = ids log ++ ids later :=
  List.filterMap_append

/-- No acquisition was started. -/
def NoStart (log : List Event) : Prop := ∀ mode, Event.started mode ∉ log

theorem noStart_cons_iff {event : Event} {log : List Event} :
    NoStart (event :: log) ↔ (∀ mode, event ≠ .started mode) ∧ NoStart log := by
  simp only [NoStart, List.mem_cons, not_or, ne_comm, forall_and]

/-! ## The ledger -/

/-- Where an acquisition stands for those who watch it. -/
inductive Stage where
  | idle
  | going (mode : Trigger)
  /-- A frame was taken up and not delivered yet. -/
  | drawing (mode : Trigger)
deriving DecidableEq, Repr

/-- No frame comes without a trigger. -/
def Stage.Triggered : Stage → Prop
  | idle => True
  | going mode | drawing mode => mode = .software

/-- How many frames were taken up and not delivered yet. -/
def Stage.inHand : Stage → Nat
  | drawing _ => 1
  | _ => 0

/-- What they know of it then. -/
structure Ledger where
  /-- How many frames were delivered. -/
  frames : Nat
  stage : Stage
  /-- A frame was asked for and not taken up yet. -/
  owed : Bool
deriving DecidableEq, Repr

/-- What may happen, and what it makes of the ledger. -/
inductive Entry : Ledger → Event → Ledger → Prop where
  /-- What was asked for before is forgotten. -/
  | started (frames : Nat) (owed : Bool) (mode : Trigger) :
      Entry ⟨frames, .idle, owed⟩ (.started mode) ⟨frames, .going mode, false⟩
  | asked (frames : Nat) (stage : Stage) (owed : Bool) :
      Entry ⟨frames, stage, owed⟩ .asked ⟨frames, stage, true⟩
  | began (frames : Nat) (owed : Bool) (mode : Trigger) (hpaid : mode = .software → owed = true) :
      Entry ⟨frames, .going mode, owed⟩ .began ⟨frames, .drawing mode, false⟩
  | delivered (frames : Nat) (owed : Bool) (mode : Trigger) (shot : Shot)
      (hid : shot.header.frameId = .ofNat (frames + 1)) :
      Entry ⟨frames, .drawing mode, owed⟩ (.delivered shot) ⟨frames + 1, .going mode, owed⟩
  | stopped (frames : Nat) (stage : Stage) (owed : Bool) (hstage : ∀ mode, stage ≠ .drawing mode) :
      Entry ⟨frames, stage, owed⟩ .stopped ⟨frames, .idle, owed⟩

/-- What a log makes of a ledger, if all of it may happen. -/
inductive Entries : Ledger → List Event → Ledger → Prop where
  | nil (l : Ledger) : Entries l [] l
  | cons {l m n : Ledger} {event : Event} {log : List Event} (entry : Entry l event m)
      (later : Entries m log n) : Entries l (event :: log) n

/-! ## Laws -/

section Laws

variable {l m n : Ledger} {event : Event} {log : List Event}

theorem Entries.single (entry : Entry l event m) : Entries l [event] m := .cons entry (.nil m)

theorem Entries.append {later : List Event} (h : Entries l log m) (hlater : Entries m later n) :
    Entries l (log ++ later) n := by
  induction h with
  | nil => exact hlater
  | cons entry _ ih => exact .cons entry (ih hlater)

theorem Entries.split {later : List Event} (h : Entries l (log ++ later) n) :
    ∃ m, Entries l log m ∧ Entries m later n := by
  induction log generalizing l with
  | nil => exact ⟨l, .nil l, h⟩
  | cons event log ih =>
    cases h with
    | cons entry rest =>
      obtain ⟨m, hlog, hlater⟩ := ih rest
      exact ⟨m, .cons entry hlog, hlater⟩

/-- The numbers go on from the frames that were delivered before. -/
theorem Entries.ids_eq (h : Entries l log m) :
    ids log = (List.range' (l.frames + 1) (ids log).length).map UInt64.ofNat := by
  induction h with
  | nil => rfl
  | cons entry _ ih =>
    cases entry with
    | delivered frames owed mode shot hid =>
      have hids : ∀ log, ids (.delivered shot :: log) = shot.header.frameId :: ids log :=
        fun _ => rfl
      rw [hids, List.length_cons, List.range'_succ, List.map_cons, ← ih, hid]
    | started | asked | began | stopped => exact ih

/-- An acquisition that has ended stays so until the next one is started. -/
theorem Entries.idle (h : Entries l log m) (hidle : l.stage = .idle) (hlog : NoStart log) :
    m.stage = .idle := by
  induction h with
  | nil => exact hidle
  | cons entry _ ih =>
    obtain ⟨hevent, hlater⟩ := noStart_cons_iff.mp hlog
    cases entry with
    | started frames owed mode => exact absurd rfl (hevent mode)
    | asked => exact ih hidle hlater
    | stopped => exact ih rfl hlater
    | began | delivered => cases hidle

/-- One event of a triggered acquisition. The frames that are asked for pay for those that
are taken up, and those for the ones that are delivered. -/
theorem Entry.triggered (entry : Entry l event m) (htriggered : l.stage.Triggered)
    (hevent : ∀ mode, event ≠ .started mode) :
    m.stage.Triggered ∧
      [event].count .began + m.owed.toNat ≤ l.owed.toNat + [event].count .asked ∧
      (ids [event]).length + m.stage.inHand = l.stage.inHand + [event].count .began := by
  cases entry with
  | started frames owed mode => exact absurd rfl (hevent mode)
  | asked => exact ⟨htriggered, by simp, by simp [ids, Event.id?]⟩
  | began frames owed mode hpaid =>
    exact ⟨htriggered, by simp [hpaid htriggered], by simp [ids, Event.id?, Stage.inHand]⟩
  | delivered => exact ⟨htriggered, by simp, by simp [ids, Event.id?, Stage.inHand]⟩
  | stopped frames stage owed hstage =>
    refine ⟨trivial, by simp, ?_⟩
    cases stage with
    | drawing mode => exact absurd rfl (hstage mode)
    | idle | going => rfl

/-- What holds of one event of a triggered acquisition holds of all of them together. -/
theorem Entries.triggered (h : Entries l log m) (htriggered : l.stage.Triggered)
    (hlog : NoStart log) :
    m.stage.Triggered ∧
      log.count .began + m.owed.toNat ≤ l.owed.toNat + log.count .asked ∧
      (ids log).length + m.stage.inHand = l.stage.inHand + log.count .began := by
  induction h with
  | nil => exact ⟨htriggered, by simp, by simp [ids]⟩
  | @cons l k m event log entry _ ih =>
    obtain ⟨hevent, hlater⟩ := noStart_cons_iff.mp hlog
    obtain ⟨hstep, hbegan, hids⟩ := entry.triggered htriggered hevent
    obtain ⟨hlast, hbegan', hids'⟩ := ih hstep hlater
    rw [← List.singleton_append, List.count_append, List.count_append, ids_append,
      List.length_append]
    refine ⟨hlast, ?_, ?_⟩ <;> omega

theorem Entries.after_start {mode : Trigger} {later : List Event}
    (h : Entries l (log ++ .started mode :: later) n) :
    ∃ frames, Entries ⟨frames, .going mode, false⟩ later n := by
  obtain ⟨m, -, hlater⟩ := h.split
  cases hlater with
  | cons entry hlater =>
    cases entry with
    | started frames owed mode => exact ⟨frames, hlater⟩

theorem Entries.after_stop {later : List Event} (h : Entries l (log ++ .stopped :: later) n) :
    ∃ frames owed, Entries ⟨frames, .idle, owed⟩ later n := by
  obtain ⟨m, -, hlater⟩ := h.split
  cases hlater with
  | cons entry hlater =>
    cases entry with
    | stopped frames stage owed hstage => exact ⟨frames, owed, hlater⟩

end Laws

/-! ## Watching -/

/-- A camera, the call that waits for the end of its acquisition, and what has happened. -/
structure Watched where
  camera : PatternCamera
  closing : Option Call
  log : List Event

/-- What can be seen of a call that has returned. -/
def noted? (c : PatternCamera) : Call → Except CaptureError Answer → Option Event
  | .start, .ok _ => some (.started c.mode)
  | .trigger, .ok _ => some .asked
  | _, _ => none

/-- What can be seen of a move of the acquisition. -/
def seen? (c c' : PatternCamera) : Option Shot → Option Event
  | some shot => some (.delivered shot)
  | none => if c'.captured = c.captured then none else some .began

namespace Watched

/-- What happens next. -/
inductive Act where
  /-- Time passes on the capture clock. -/
  | pass (clock : UInt64)
  | move (m : Move)
  | call (call : Call)
  /-- The call that waits for the acquisition returns. -/
  | join
deriving DecidableEq, Repr

/-- Makes a call. One that ends the acquisition tells it to stop, then waits for it. -/
def call (call : Call) (w : Watched) : Watched :=
  match call with
  | .stop | .shutdown => { w with camera := w.camera.requestStop, closing := some call }
  | _ =>
    let (answer, camera) := w.camera.perform call
    { w with camera, log := w.log ++ (noted? w.camera call answer).toList }

/-- The call that waits returns once the acquisition has ended. -/
def join (w : Watched) : Watched :=
  match w.closing, w.camera.join? with
  | some call, some c =>
    { camera := if call = .shutdown then { c with configured := false } else c
      closing := none
      log := w.log ++ [.stopped] }
  | _, _ => w

/-- Performs an act. There are no calls beside one that waits, and a move that is not
enabled changes nothing. -/
def act (w : Watched) : Act → Watched
  | .pass clock => { w with camera := { w.camera with clock } }
  | .move m =>
    match w.camera.move m with
    | some (camera, shot) => { w with camera, log := w.log ++ (seen? w.camera camera shot).toList }
    | none => w
  | .call call => if w.closing.isSome then w else w.call call
  | .join => w.join

end Watched

/-- A new camera that is watched over some acts. -/
def watch (acts : List Watched.Act) : Watched := acts.foldl Watched.act ⟨new, none, []⟩

/-! ## The camera keeps to the ledger -/

/-- How an acquisition and the number of frames that were begun stand in a ledger. -/
structure Acquisition.Stands (a : Acquisition) (captured : UInt64) (l : Ledger) : Prop where
  owed : a.triggered = true → l.owed = true
  phase : match a.phase with
    | .checking | .ended => l.stage = .going a.mode ∧ captured = .ofNat l.frames
    | .waiting view =>
      l.stage = .going a.mode ∧ captured = .ofNat l.frames ∧ view.width ≠ 0
    | .drawing view frameId =>
      l.stage = .drawing a.mode ∧ captured = .ofNat (l.frames + 1) ∧ view.width ≠ 0 ∧
        frameId = captured

/-- How a camera stands in a ledger. All of its frames have a width. -/
structure Stands (c : PatternCamera) (l : Ledger) : Prop where
  wide : c.configured = true → c.settings.width ≠ 0
  configured : c.acquisition.isSome = true → c.configured = true
  idle : c.acquisition = none → l.stage = .idle ∧ c.captured = .ofNat l.frames
  going : ∀ a, c.acquisition = some a → Acquisition.Stands a c.captured l

section Standing

variable {c c' : PatternCamera} {a b : Acquisition} {l m : Ledger}

theorem seen?_goTo (phase : Phase) : seen? c (c.goTo a phase) none = none := if_pos rfl

theorem seen?_beginFrame (view : Settings) : seen? c (c.beginFrame a view) none = some .began := by
  have hnext : c.captured + 1 ≠ c.captured := by
    intro hsame
    have hone : (1 : UInt64) = 0 := by
      rw [← UInt64.add_right_inj c.captured, hsame, UInt64.add_zero]
    cases hone
  exact if_neg hnext

theorem Acquisition.Stands.stopping (h : Acquisition.Stands a c.captured l) :
    Acquisition.Stands { a with stopping := true } c.captured l :=
  ⟨h.owed, h.phase⟩

theorem Acquisition.Stands.of_ended {captured : UInt64} (h : Acquisition.Stands a captured l)
    (hended : a.phase = .ended) : l.stage = .going a.mode ∧ captured = .ofNat l.frames := by
  have hphase := h.phase
  rw [hended] at hphase
  exact hphase

namespace Stands

theorem new : Stands new ⟨0, .idle, false⟩ where
  wide := nofun
  configured := nofun
  idle _ := ⟨rfl, rfl⟩
  going := nofun

/-- Only the acquisition went on. -/
theorem withAcquisition (h : Stands c l) (ha : c.acquisition = some a) {captured : UInt64}
    (hb : Acquisition.Stands b captured m) :
    Stands { c with captured, acquisition := some b } m where
  wide := h.wide
  configured _ := h.configured (by simp [ha])
  idle := nofun
  going := by
    rintro _ ⟨⟩
    exact hb

theorem move (h : Stands c l) (ha : c.acquisition = some a) {shot : Option Shot}
    (hmoved : Moved c a c' shot) :
    ∃ m, Entries l (seen? c c' shot).toList m ∧ Stands c' m := by
  have hstands := h.going a ha
  have hphase := hstands.phase
  cases hmoved with
  | looked hchecking hgoing =>
    rw [hchecking] at hphase
    -- only here the width of a frame is settled: a camera that streams is configured
    have hwide : c.settings.width ≠ 0 := h.wide (h.configured (by simp [ha]))
    rw [seen?_goTo]
    exact ⟨l, .nil l, h.withAcquisition ha ⟨hstands.owed, hphase.1, hphase.2, hwide⟩⟩
  | ended hstopping hwhere =>
    rw [seen?_goTo]
    refine ⟨l, .nil l, h.withAcquisition ha ⟨hstands.owed, ?_⟩⟩
    rcases hwhere with hchecking | ⟨view, hwaiting, -⟩
    · rw [hchecking] at hphase
      exact hphase
    · rw [hwaiting] at hphase
      exact ⟨hphase.1, hphase.2.1⟩
  | gaveUpWaiting view hwaiting hidle =>
    rw [hwaiting] at hphase
    rw [seen?_goTo]
    exact ⟨l, .nil l, h.withAcquisition ha ⟨hstands.owed, hphase.1, hphase.2.1⟩⟩
  | began view hwaiting hpaid hgoing =>
    rw [hwaiting] at hphase
    obtain ⟨frames, stage, owed⟩ := l
    obtain ⟨rfl, hcaptured, hwide⟩ := hphase
    rw [seen?_beginFrame]
    -- a trigger that the acquisition waited for was asked for since it was started
    refine ⟨⟨frames, .drawing a.mode, false⟩, .single (.began frames owed a.mode ?_), ?_⟩
    · exact fun hmode => hstands.owed (hpaid hmode)
    · refine h.withAcquisition ha ⟨nofun, rfl, ?_, hwide, rfl⟩
      rw [hcaptured]
      exact (UInt64.ofNat_add frames 1).symm
  | delivered view frameId hdrawing hwide =>
    rw [hdrawing] at hphase
    obtain ⟨frames, stage, owed⟩ := l
    obtain ⟨rfl, hcaptured, -, rfl⟩ := hphase
    exact ⟨⟨frames + 1, .going a.mode, owed⟩, .single (.delivered frames owed a.mode _ hcaptured),
      h.withAcquisition ha ⟨hstands.owed, rfl, hcaptured⟩⟩
  | failed view frameId hdrawing hwidth =>
    -- the number of such a frame would be missing
    rw [hdrawing] at hphase
    exact absurd hwidth hphase.2.2.1

theorem requestStop (h : Stands c l) : Stands c.requestStop l := by
  cases ha : c.acquisition with
  | none =>
    rw [requestStop_of_idle ha]
    exact h
  | some a =>
    have hstopping : c.requestStop =
        { c with captured := c.captured, acquisition := some { a with stopping := true } } := by
      rw [PatternCamera.requestStop, ha, Option.map_some]
    rw [hstopping]
    exact h.withAcquisition ha (h.going a ha).stopping

/-- The acquisition is over. -/
theorem join (h : Stands c l) (hjoin : c.join? = some c') :
    c'.acquisition = none ∧ ∃ m, Entry l .stopped m ∧ Stands c' m := by
  obtain ⟨rfl, hended⟩ := of_join? hjoin
  have hrests : (∀ mode, l.stage ≠ .drawing mode) ∧ c.captured = .ofNat l.frames := by
    cases ha : c.acquisition with
    | none =>
      obtain ⟨hstage, hcaptured⟩ := h.idle ha
      exact ⟨by simp [hstage], hcaptured⟩
    | some a =>
      obtain ⟨hstage, hcaptured⟩ := (h.going a ha).of_ended (hended a ha)
      exact ⟨by simp [hstage], hcaptured⟩
  exact ⟨rfl, _, .stopped l.frames l.stage l.owed hrests.1, h.wide, by simp,
    fun _ => ⟨rfl, hrests.2⟩, by simp⟩

theorem releaseIf (h : Stands c l) (hidle : c.acquisition = none) (p : Prop) [Decidable p] :
    Stands (if p then { c with configured := false } else c) l := by
  split
  · exact ⟨nofun, by simp [hidle], h.idle, h.going⟩
  · exact h

/-- A call that does not wait for the end of the acquisition. -/
theorem called (h : Stands c l) {call : Call} {answer : Except CaptureError Answer}
    (hcalled : Called c call answer c') (hstop : call ≠ .stop) (hshutdown : call ≠ .shutdown)
    (hwide : ∀ config, call = .configure config → Fits config → config.width ≠ 0) :
    ∃ m, Entries l (noted? c call answer).toList m ∧ Stands c' m := by
  obtain ⟨frames, stage, owed⟩ := l
  cases hcalled with
  | configured config hfits =>
    exact ⟨_, .nil _, fun _ => hwide config rfl hfits, fun _ => rfl, h.idle, h.going⟩
  | started hconfigured hidle =>
    obtain ⟨rfl, hcaptured⟩ := h.idle hidle
    refine ⟨_, .single (.started frames owed c.mode), h.wide, fun _ => hconfigured, nofun, ?_⟩
    rintro _ ⟨⟩
    exact ⟨nofun, rfl, hcaptured⟩
  | gainSet gain settings hsettings =>
    subst hsettings
    exact ⟨_, .nil _, h.wide, h.configured, h.idle, h.going⟩
  | exposureSet exposure settings hsettings =>
    subst hsettings
    exact ⟨_, .nil _, h.wide, h.configured, h.idle, h.going⟩
  | offsetsSet x y => exact ⟨_, .nil _, h.wide, h.configured, h.idle, h.going⟩
  | unheeded hmode =>
    -- the call succeeds, and the ledger cannot tell that nothing will come of it
    refine ⟨_, .single (.asked frames stage owed), h.wide, h.configured, h.idle, ?_⟩
    exact fun a ha => ⟨fun _ => rfl, (h.going a ha).phase⟩
  | triggered a hmode ha =>
    refine ⟨_, .single (.asked frames stage owed), h.withAcquisition ha ⟨fun _ => rfl, ?_⟩⟩
    exact (h.going a ha).phase
  | stopped captured => exact absurd rfl hstop
  | released captured => exact absurd rfl hshutdown
  | oversized config hfits e => exact ⟨_, .nil _, h⟩
  | notStarted hwhy e => exact ⟨_, .nil _, h⟩
  | notTriggered hmode hidle e => exact ⟨_, .nil _, h⟩

end Stands

end Standing

namespace Watched

variable {w : Watched}

/-- A ledger could be kept of all that has happened. -/
def Kept (w : Watched) : Prop :=
  ∃ l, Entries ⟨0, .idle, false⟩ w.log l ∧ Stands w.camera l

/-- What was seen next may happen next. -/
theorem Kept.next {l : Ledger} (hlog : Entries ⟨0, .idle, false⟩ w.log l) {c : PatternCamera}
    {events : List Event} {closing : Option Call}
    (h : ∃ m, Entries l events m ∧ Stands c m) : Kept ⟨c, closing, w.log ++ events⟩ := by
  obtain ⟨m, hevents, hstands⟩ := h
  exact ⟨m, hlog.append hevents, hstands⟩

theorem Kept.call (h : w.Kept) {call : Call}
    (hwide : ∀ config, call = .configure config → Fits config → config.width ≠ 0) :
    (w.call call).Kept := by
  obtain ⟨l, hlog, hstands⟩ := h
  have hcalled := called_perform w.camera call
  unfold Watched.call
  split
  · exact ⟨l, hlog, hstands.requestStop⟩
  · exact ⟨l, hlog, hstands.requestStop⟩
  · next hstop hshutdown => exact .next hlog (hstands.called hcalled hstop hshutdown hwide)

theorem Kept.join (h : w.Kept) : w.join.Kept := by
  obtain ⟨l, hlog, hstands⟩ := h
  unfold Watched.join
  split
  · next call c hcall hjoin =>
    obtain ⟨hidle, m, hentry, hlast⟩ := hstands.join hjoin
    exact .next hlog ⟨m, .single hentry, hlast.releaseIf hidle _⟩
  · exact ⟨l, hlog, hstands⟩

/-- Whatever happens next, a ledger can be kept of it. -/
theorem Kept.act (h : w.Kept) {act : Act}
    (hwide : ∀ config, act = .call (.configure config) → Fits config → config.width ≠ 0) :
    (w.act act).Kept := by
  cases act with
  | pass clock =>
    obtain ⟨l, hlog, hstands⟩ := h
    exact ⟨l, hlog, hstands.wide, hstands.configured, hstands.idle, hstands.going⟩
  | move m =>
    unfold Watched.act
    dsimp only
    split
    · next c shot hmove =>
      obtain ⟨l, hlog, hstands⟩ := h
      obtain ⟨a, ha, hmoved⟩ := moved_of_move hmove
      exact .next hlog (hstands.move ha hmoved)
    · exact h
  | call call =>
    unfold Watched.act
    dsimp only
    split
    · exact h
    · exact h.call fun config hconfig => hwide config (congrArg Act.call hconfig)
  | join => exact h.join

end Watched

theorem kept_watch {acts : List Watched.Act}
    (hwide : ∀ config, .call (.configure config) ∈ acts → Fits config → config.width ≠ 0) :
    (watch acts).Kept := by
  unfold watch
  suffices hrun : ∀ w : Watched, w.Kept → (acts.foldl Watched.act w).Kept from
    hrun _ ⟨_, .nil _, .new⟩
  induction acts with
  | nil => exact fun w h => h
  | cons act later ih =>
    intro w h
    refine ih (fun config hconfig => hwide config (List.mem_cons_of_mem _ hconfig)) _ (h.act ?_)
    rintro config rfl
    exact hwide config List.mem_cons_self

/-! ## Delivery -/

/-- What can be relied on by those who take the frames of a camera. -/
structure Delivery (log : List Event) : Prop where
  /-- The frames are numbered from one on without a gap. -/
  numbered : ids log = (List.range' 1 (ids log).length).map UInt64.ofNat
  /-- No number comes twice as long as there are numbers left. -/
  nodup : (ids log).length < UInt64.size → (ids log).Nodup
  /-- No frame comes after the acquisition has ended. -/
  quiet : ∀ before between shot after,
    log = before ++ .stopped :: (between ++ .delivered shot :: after) →
      ∃ mode, .started mode ∈ between
  /-- A triggered acquisition delivers no more frames than it was asked for. -/
  paid : ∀ before between after,
    log = before ++ .started .software :: (between ++ after) → NoStart between →
      (ids between).length ≤ between.count .asked
  /-- A trigger that was still pending when an acquisition ended is lost. -/
  forgotten : ∀ before between after,
    log = before ++ .started .software :: (between ++ after) → NoStart between →
      .asked ∉ between → ids between = []
  /-- There never are two triggers pending: over any time, at most one frame is taken up
  that was not asked for within it. -/
  pending : ∀ before back between after,
    log = before ++ .started .software :: (back ++ (between ++ after)) →
      NoStart back → NoStart between →
      between.count .began ≤ between.count .asked + 1

/-- The camera with a trigger pending or with none. -/
def withPending (pending : Bool) (c : PatternCamera) : PatternCamera :=
  { c with acquisition := c.acquisition.map fun a => { a with triggered := pending } }

theorem join?_withPending (pending : Bool) (c : PatternCamera) :
    (c.withPending pending).join? = c.join? := by
  cases ha : c.acquisition with
  | none =>
    have hsame : c.withPending pending = c := by
      obtain ⟨settings, mode, configured, captured, clock, acquisition⟩ := c
      cases ha
      rfl
    rw [hsame]
  | some a => simp [join?, withPending, ha]

section Delivery

variable {log before between after : List Event} {l n : Ledger}

theorem nodup_of_numbered (hnumbered : ids log = (List.range' 1 (ids log).length).map UInt64.ofNat)
    (hleft : (ids log).length < UInt64.size) : (ids log).Nodup := by
  rw [hnumbered]
  refine List.pairwise_map.mpr (List.Pairwise.imp_of_mem ?_ (List.nodup_range' 1))
  intro i j hi hj hne hsame
  refine hne ?_
  rw [List.mem_range'_1] at hi hj
  have hi' : i < UInt64.size := by omega
  have hj' : j < UInt64.size := by omega
  rw [← UInt64.toNat_ofNat_of_lt' hi', hsame, UInt64.toNat_ofNat_of_lt' hj']

/-- The frames that an acquisition delivered since it was started were asked for. -/
theorem Entries.length_ids_le (h : Entries l (before ++ .started .software :: (between ++ after)) n)
    (hbetween : NoStart between) : (ids between).length ≤ between.count .asked := by
  obtain ⟨frames, hstarted⟩ := h.after_start
  obtain ⟨m, hlog, -⟩ := hstarted.split
  obtain ⟨-, hbegan, hids⟩ := hlog.triggered rfl hbetween
  simp only [Stage.inHand, Bool.toNat_false] at hbegan hids
  omega

theorem Entries.delivery (h : Entries ⟨0, .idle, false⟩ log l) : Delivery log where
  numbered := h.ids_eq
  nodup := nodup_of_numbered h.ids_eq
  quiet := by
    rintro before between shot after rfl
    obtain ⟨frames, owed, hstopped⟩ := h.after_stop
    obtain ⟨m, hbetween, hlater⟩ := hstopped.split
    -- without another start the ledger still stands idle when the frame comes
    apply Classical.byContradiction
    intro hnone
    have hidle : m.stage = .idle := hbetween.idle rfl fun mode hmode => hnone ⟨mode, hmode⟩
    cases hlater with
    | cons entry later =>
      cases entry with
      | delivered => cases hidle
  paid := by
    rintro before between after rfl hbetween
    exact h.length_ids_le hbetween
  forgotten := by
    rintro before between after rfl hbetween hunasked
    have hpaid := h.length_ids_le hbetween
    rw [List.count_eq_zero_of_not_mem hunasked] at hpaid
    exact List.eq_nil_of_length_eq_zero (Nat.le_zero.mp hpaid)
  pending := by
    rintro before back between after rfl hback hbetween
    obtain ⟨frames, hstarted⟩ := h.after_start
    obtain ⟨m, hlog, hlater⟩ := hstarted.split
    obtain ⟨n, hmiddle, -⟩ := hlater.split
    -- what happened since the start can have left one frame that is owed, not more
    obtain ⟨htriggered, -, -⟩ := hlog.triggered rfl hback
    obtain ⟨-, hbegan, -⟩ := hmiddle.triggered htriggered hbetween
    have hone : m.owed.toNat ≤ 1 := Bool.toNat_le m.owed
    omega

end Delivery

/-- Whatever the order of calls and moves: the frames of a camera are numbered in a row,
none comes after the acquisition has ended, and each frame of a triggered acquisition was
asked for since it was started. What an acquisition leaves behind does not tell whether a
trigger was pending when it ended. -/
theorem frames_delivered (acts : List Watched.Act)
    (hwide : ∀ config, .call (.configure config) ∈ acts → Fits config → config.width ≠ 0) :
    Delivery (watch acts).log ∧
      ∀ pending, ((watch acts).camera.withPending pending).join? = (watch acts).camera.join? := by
  obtain ⟨l, hlog, -⟩ := kept_watch hwide
  exact ⟨hlog.delivery, fun pending => join?_withPending pending _⟩

/-- Three triggered acquisitions. Two triggers make the first frame; the second frame is
delivered while the call that ends the acquisition waits; the trigger of the second
acquisition is lost when the camera is shut down. -/
def threeStarts : List Watched.Act :=
  let config : CaptureConfig := { width := 2, height := 1, trigger := .software }
  [.call (.configure config), .call .start, .move .check, .call .trigger, .call .trigger,
    .move .wake, .call .trigger, .move .deliver, .move .check, .call .stop, .move .wake,
    .move .deliver, .move .check, .join,
    .call .start, .call .trigger, .call .shutdown, .move .check, .join,
    .call (.configure config), .call .start, .move .check, .move .wake, .move .giveUpWaiting,
    .call .trigger, .move .check, .move .wake, .move .deliver]

theorem frames_of_three_starts :
    (∀ config, .call (.configure config) ∈ threeStarts → Fits config → config.width ≠ 0) ∧
      ids (watch threeStarts).log = [1, 2, 3] ∧ Delivery (watch threeStarts).log := by
  have hwide : ∀ config, .call (.configure config) ∈ threeStarts → Fits config →
      config.width ≠ 0 := by
    intro config hconfig _
    simp only [threeStarts, List.mem_cons, Watched.Act.call.injEq, Call.configure.injEq,
      reduceCtorEq, false_or, or_false, List.not_mem_nil] at hconfig
    rcases hconfig with rfl | rfl <;> decide
  exact ⟨hwide, rfl, (frames_delivered threeStarts hwide).1⟩

end FrameServer.PatternCamera
