import FrameServer.Proofs.Recording.Drain

/-!
# FrameServer.Proofs.Recording.Ending — how the drain ends

Between any two frames the drain looks for a request to end. Only one frame can be dealt
with after the request and before the drain sees it. The drain then reads the recording
switch, once: with recording on it empties the ring, and each frame becomes a job; with
recording off it ends on the spot and touches nothing.

1. **Frames after the request**: none is lost, and none is taken twice.
2. **Until the drain sees the request**
3. **Emptying the ring**
4. **Leaving the ring**
5. **Endings**
-/

namespace FrameServer.Logger.Drain

variable {encoder : Encoder} {now : WallTime} {handOff : Bool} {d : Drain}

/-! ## Frames after the request -/

/-- Shutting down was asked for when these frames were pending. Since then the drain
has dealt with some of them, the oldest first. -/
structure InOrder (frames : List Frame) (d : Drain) : Prop where
  cancelled : d.exchange.cancelled = true
  coherent : d.ring.Coherent
  order : d.taken.map Prod.fst ++ d.pending = frames

namespace InOrder

variable {frames : List Frame}

theorem fetched (h : InOrder frames d) (hhand : d.hand = none) {next idle : Phase} {d' : Drain}
    (hfetched : Fetched next idle d d') : InOrder frames d' := by
  cases hfetched with
  | took frame ring hget =>
    obtain ⟨hcoherent, hwaiting⟩ := Ring.waiting_of_get? h.coherent hget
    have horder := h.order
    rw [pending, hhand, hwaiting] at horder
    exact ⟨h.cancelled, hcoherent, horder⟩
  | foundNone => exact ⟨h.cancelled, h.coherent, h.order⟩

theorem dealt (h : InOrder frames d) {frame : Frame} (hhand : d.hand = some frame) {d' : Drain}
    (hdealt : Dealt frame d d') : InOrder frames d' := by
  obtain ⟨job, htaken⟩ := hdealt.taken
  refine ⟨hdealt.cancelled.trans h.cancelled, hdealt.ring ▸ h.coherent, ?_⟩
  rw [← h.order, htaken, pending, pending, hdealt.ring, hhand, hdealt.hand, List.map_append,
    List.append_assoc]
  rfl

theorem turn (h : InOrder frames d) (now : WallTime) (handOff : Bool) :
    InOrder frames (d.turn encoder now handOff) := by
  cases hhand : d.hand with
  | some frame => exact h.dealt hhand (turn_of_hand encoder now handOff hhand)
  | none =>
    cases hphase : d.phase with
    | checking =>
      rw [turn_of_checking encoder now handOff hhand hphase]
      exact ⟨h.cancelled, h.coherent, h.order⟩
    | waiting => exact h.fetched hhand (turn_of_waiting encoder now handOff hhand hphase)
    | flushing => exact h.fetched hhand (turn_of_flushing encoder now handOff hhand hphase)
    | ended =>
      rw [turn_of_ended encoder now handOff hhand hphase]
      exact h

theorem finish (h : InOrder frames d) (now : WallTime) (index : Nat) :
    InOrder frames (d.moved encoder now (.finish index)) := by
  obtain ⟨counters, handed, root, hmoved, -⟩ := finished encoder now index d
  rw [hmoved]
  exact ⟨h.cancelled, h.coherent, h.order⟩

theorem change (h : InOrder frames d) (recording : Recording) :
    InOrder frames { d with exchange := { d.exchange with recording } } :=
  ⟨h.cancelled, h.coherent, h.order⟩

theorem run (h : InOrder frames d) (events : List Event) :
    InOrder frames (d.run encoder events) :=
  run_induction (fun _ => InOrder frames) (fun _ => True) (fun now handOff h => h.turn now handOff)
    (fun now index h => h.finish now index) (fun recording _ h => h.change recording) h events
    (fun _ _ => trivial) (n := 0)

end InOrder

/-! ## Until the drain sees the request -/

/-- Shutting down was not asked for, so that the drain only waits for frames. -/
structure Open (d : Drain) : Prop where
  cancelled : d.exchange.cancelled = false
  ring : ∃ bound length q, d.ring.Represents bound length q
  stage : d.phase = .waiting ∧ d.hand = none ∨ d.phase = .checking

namespace Open

theorem new (workers : Nat) (ticksPerSecond : Binary64) (requested : Nat) (width height : UInt32)
    (recording : Recording) :
    Open (.new workers ticksPerSecond requested width height recording) :=
  ⟨rfl, ⟨_, _, _, .empty requested width height⟩, .inr rfl⟩

theorem turn (h : Open d) (now : WallTime) (handOff : Bool) :
    Open (d.turn encoder now handOff) := by
  rcases h.stage with ⟨hphase, hhand⟩ | hphase
  · have hfetched := turn_of_waiting encoder now handOff hhand hphase
    generalize d.turn encoder now handOff = d' at hfetched
    cases hfetched with
    | took frame ring hget =>
      obtain ⟨bound, length, q, hq⟩ := h.ring
      obtain ⟨-, hrest⟩ := hq.get
      rw [hget] at hrest
      exact ⟨h.cancelled, ⟨bound, length, _, hrest⟩, .inr rfl⟩
    | foundNone => exact ⟨h.cancelled, h.ring, .inr rfl⟩
  · cases hhand : d.hand with
    | some frame =>
      have hdealt := turn_of_hand encoder now handOff hhand
      exact ⟨hdealt.cancelled.trans h.cancelled, hdealt.ring ▸ h.ring,
        .inr (hdealt.phase.trans hphase)⟩
    | none =>
      have htold : d.told = .waiting := by
        rw [told, h.cancelled]
        rfl
      rw [turn_of_checking encoder now handOff hhand hphase, htold]
      exact ⟨h.cancelled, h.ring, .inl ⟨rfl, hhand⟩⟩

theorem step (h : Open d) (e : Event) : Open (d.step encoder e) := by
  cases e with
  | turn now handOff => exact h.turn now handOff
  | finish now index =>
    obtain ⟨counters, handed, root, hmoved, -⟩ := finished encoder now index d
    show Open (d.moved encoder now (.finish index))
    rw [hmoved]
    exact ⟨h.cancelled, h.ring, h.stage⟩
  | change recording => exact ⟨h.cancelled, h.ring, h.stage⟩

theorem cancel (h : Open d) : InOrder d.pending d.cancel := by
  obtain ⟨bound, length, q, hq⟩ := h.ring
  exact ⟨rfl, hq.coherent, rfl⟩

end Open

/-- The drain has had these turns since it was asked to end, and did not see it yet. -/
inductive Unseen (turns : Nat) (d : Drain) : Prop where
  | waits (hphase : d.phase = .waiting) (hhand : d.hand = none) (htaken : d.taken = [])
      (hturns : turns = 0)
  | holds (frame : Frame) (hphase : d.phase = .checking) (hhand : d.hand = some frame)
      (htaken : d.taken = []) (hturns : turns ≤ 1)
  | looks (hphase : d.phase = .checking) (hhand : d.hand = none) (htaken : d.taken.length ≤ 1)
      (hturns : turns ≤ 2)

/-- Only what the drain itself does matters. -/
theorem Unseen.congr {turns : Nat} (h : Unseen turns d) {d' : Drain} (hphase : d'.phase = d.phase)
    (hhand : d'.hand = d.hand) (htaken : d'.taken = d.taken) : Unseen turns d' := by
  cases h with
  | waits hp hh ht hturns =>
    exact .waits (hphase.trans hp) (hhand.trans hh) (htaken.trans ht) hturns
  | holds frame hp hh ht hturns =>
    exact .holds frame (hphase.trans hp) (hhand.trans hh) (htaken.trans ht) hturns
  | looks hp hh ht hturns =>
    exact .looks (hphase.trans hp) (hhand.trans hh) (htaken ▸ ht) hturns

/-- The drain has seen that it is to end. -/
def Seen (d : Drain) : Prop := d.phase = .flushing ∨ d.phase = .ended

/-- A drain that looks after the request sees it. -/
theorem seen_of_look (hcancelled : d.exchange.cancelled = true) : (d.atPhase d.told).Seen := by
  show d.told = .flushing ∨ d.told = .ended
  rw [told, if_pos hcancelled]
  split
  · exact .inl rfl
  · exact .inr rfl

theorem Seen.turn (h : d.Seen) (now : WallTime) (handOff : Bool) :
    (d.turn encoder now handOff).Seen := by
  cases hhand : d.hand with
  | some frame =>
    have hdealt := turn_of_hand encoder now handOff hhand
    exact h.imp hdealt.phase.trans hdealt.phase.trans
  | none =>
    rcases h with hphase | hphase
    · have hfetched := turn_of_flushing encoder now handOff hhand hphase
      generalize d.turn encoder now handOff = d' at hfetched
      cases hfetched with
      | took => exact .inl rfl
      | foundNone => exact .inr rfl
    · rw [turn_of_ended encoder now handOff hhand hphase]
      exact .inr hphase

/-- After two turns at most the drain is back where it looks, and the next turn sees the
request. -/
theorem Unseen.turn {turns : Nat} (h : Unseen turns d) (hcancelled : d.exchange.cancelled = true)
    (now : WallTime) (handOff : Bool) :
    Unseen (turns + 1) (d.turn encoder now handOff) ∨ (d.turn encoder now handOff).Seen := by
  cases h with
  | waits hphase hhand htaken hturns =>
    have hfetched := turn_of_waiting encoder now handOff hhand hphase
    generalize d.turn encoder now handOff = d' at hfetched
    cases hfetched with
    | took frame ring hget => exact .inl (.holds frame rfl rfl htaken (by omega))
    | foundNone =>
      have hnone : d.taken.length = 0 := List.length_eq_zero_iff.mpr htaken
      exact .inl (.looks rfl hhand (Nat.le_succ_of_le (Nat.le_of_eq hnone)) (by omega))
  | holds frame hphase hhand htaken hturns =>
    have hdealt := turn_of_hand encoder now handOff hhand
    obtain ⟨job, htaken'⟩ := hdealt.taken
    refine .inl (.looks (hdealt.phase.trans hphase) hdealt.hand ?_ (by omega))
    rw [htaken', htaken]
    exact Nat.le_refl 1
  | looks hphase hhand htaken hturns =>
    rw [turn_of_checking encoder now handOff hhand hphase]
    exact .inr (seen_of_look hcancelled)

/-- The next turn of the drain sees what it is asked to. -/
structure Looks (d : Drain) : Prop where
  phase : d.phase = .checking
  hand : d.hand = none

/-- How many turns it takes until the drain finds the ring empty. -/
def ahead (d : Drain) : Nat := 2 * d.ring.size + d.hand.toList.length

/-- Since it was at `w`, the drain has dealt with some frames, and each became a job. -/
structure Recorded (w d : Drain) (jobs : List Job) : Prop where
  taken : d.taken = w.taken ++ jobs.map fun job => (job.frame, some job)
  accounted : d.logger.accounted = w.logger.accounted + jobs.length
  drained : d.logger.counters.drained = w.logger.counters.drained + jobs.length

/-- Since it saw at `w` that it is to end, the drain has had these turns. Recording was on
all the time. -/
structure Emptying (w : Drain) (turns : Nat) (d : Drain) : Prop where
  active : d.recording.Active
  coherent : d.ring.Coherent
  jobs : ∃ jobs, Recorded w d jobs
  stage : d.phase = .flushing ∧ turns + d.ahead = w.ahead ∨ d.phase = .ended ∧ d.pending = []

namespace Emptying

variable {w : Drain} {turns : Nat}

theorem look (hlooks : w.Looks) (hcancelled : w.exchange.cancelled = true)
    (hcoherent : w.ring.Coherent) (hactive : w.recording.Active) (now : WallTime)
    (handOff : Bool) : Emptying w 0 (w.turn encoder now handOff) := by
  have htold : w.told = .flushing := by rw [told, if_pos hcancelled, if_pos hactive.enabled]
  rw [turn_of_checking encoder now handOff hlooks.hand hlooks.phase, htold]
  exact ⟨hactive, hcoherent, ⟨[], (List.append_nil _).symm, rfl, rfl⟩, .inl ⟨rfl, Nat.zero_add _⟩⟩

/-- Dealing with a frame adds its job. -/
theorem dealt (h : Emptying w turns d) {frame : Frame} (hhand : d.hand = some frame) {d' : Drain}
    (hdealt : Dealt frame d d') : Emptying w (turns + 1) d' := by
  obtain ⟨jobs, hjobs⟩ := h.jobs
  obtain ⟨hactive, haccounted, job, rfl, htaken⟩ := hdealt.recorded h.active
  refine ⟨hactive, hdealt.ring ▸ h.coherent, ⟨jobs ++ [job], ?_, ?_, ?_⟩, ?_⟩
  · rw [htaken, hjobs.taken, List.map_append, List.append_assoc]
    rfl
  · rw [haccounted, hjobs.accounted, List.length_append, List.length_singleton, Nat.add_assoc]
  · rw [hdealt.drained, hjobs.drained, List.length_append, List.length_singleton, Nat.add_assoc]
  · rcases h.stage with ⟨hphase, hahead⟩ | ⟨-, hnone⟩
    · refine .inl ⟨hdealt.phase.trans hphase, ?_⟩
      rw [← hahead, ahead, ahead, hdealt.ring, hdealt.hand, hhand]
      simp only [Option.toList_none, Option.toList_some, List.length_nil, List.length_singleton]
      omega
    · rw [pending, hhand] at hnone
      cases hnone

theorem turn (h : Emptying w turns d) (now : WallTime) (handOff : Bool) :
    Emptying w (turns + 1) (d.turn encoder now handOff) := by
  cases hhand : d.hand with
  | some frame => exact h.dealt hhand (turn_of_hand encoder now handOff hhand)
  | none =>
    obtain ⟨jobs, hjobs⟩ := h.jobs
    rcases h.stage with ⟨hphase, hahead⟩ | ⟨hphase, hnone⟩
    · have hfetched := turn_of_flushing encoder now handOff hhand hphase
      generalize d.turn encoder now handOff = d' at hfetched
      cases hfetched with
      | took frame ring hget =>
        obtain ⟨hcoherent, hwaiting⟩ := Ring.waiting_of_get? h.coherent hget
        have hsize := congrArg List.length hwaiting
        rw [List.length_cons, Ring.waiting_length, Ring.waiting_length] at hsize
        refine ⟨h.active, hcoherent, ⟨jobs, hjobs.taken, hjobs.accounted, hjobs.drained⟩,
          .inl ⟨rfl, ?_⟩⟩
        show turns + 1 + (2 * ring.size + 1) = w.ahead
        rw [← hahead, ahead, hhand, hsize]
        simp only [Option.toList_none, List.length_nil]
        omega
      | foundNone hempty =>
        refine ⟨h.active, h.coherent, ⟨jobs, hjobs.taken, hjobs.accounted, hjobs.drained⟩,
          .inr ⟨rfl, ?_⟩⟩
        show d.pending = []
        rw [pending, hhand, (Ring.waiting_eq_nil_iff _).mpr hempty]
        rfl
    · rw [turn_of_ended encoder now handOff hhand hphase]
      exact ⟨h.active, h.coherent, ⟨jobs, hjobs⟩, .inr ⟨hphase, hnone⟩⟩

theorem finish (h : Emptying w turns d) (now : WallTime) (index : Nat) :
    Emptying w turns (d.moved encoder now (.finish index)) := by
  obtain ⟨jobs, hjobs⟩ := h.jobs
  obtain ⟨counters, handed, root, hmoved, hdrained, haccounted⟩ := finished encoder now index d
  rw [hmoved] at haccounted ⊢
  exact ⟨h.active.withRoot root, h.coherent,
    ⟨jobs, hjobs.taken, haccounted.trans hjobs.accounted, hdrained.trans hjobs.drained⟩, h.stage⟩

theorem change (h : Emptying w turns d) {recording : Recording} (hactive : recording.Active) :
    Emptying w turns { d with exchange := { d.exchange with recording } } := by
  obtain ⟨jobs, hjobs⟩ := h.jobs
  exact ⟨hactive, h.coherent, ⟨jobs, hjobs.taken, hjobs.accounted, hjobs.drained⟩, h.stage⟩

theorem run (h : Emptying w turns d) {events : List Event}
    (hactive : ∀ r ∈ changesOf events, r.Active) :
    Emptying w (turns + turnsOf events) (d.run encoder events) :=
  run_induction (Emptying w) Recording.Active (fun now handOff h => h.turn now handOff)
    (fun now index h => h.finish now index) (fun _ hactive h => h.change hactive) h events hactive

end Emptying

/-! ## Leaving the ring -/

/-- Since it was at `w`, the drain has ended and touched nothing; `snap` is whether others
left a snap pending. -/
structure Left (w : Drain) (snap : Bool) (d : Drain) : Prop where
  phase : d.phase = .ended
  hand : d.hand = none
  taken : d.taken = w.taken
  ring : d.ring = w.ring
  numbering : d.logger.numbering = w.logger.numbering
  drained : d.logger.counters.drained = w.logger.counters.drained
  snapPending : d.recording.snapPending = snap

namespace Left

variable {w : Drain} {snap : Bool}

theorem look (hlooks : w.Looks) (hcancelled : w.exchange.cancelled = true)
    (hoff : w.recording.enabled = false) (now : WallTime) (handOff : Bool) :
    Left w w.recording.snapPending (w.turn encoder now handOff) := by
  have htold : w.told = .ended := by
    rw [told, if_pos hcancelled, hoff]
    rfl
  rw [turn_of_checking encoder now handOff hlooks.hand hlooks.phase, htold]
  exact ⟨rfl, hlooks.hand, rfl, rfl, rfl, rfl, rfl⟩

theorem run (h : Left w snap d) (events : List Event) :
    Left w (((changesOf events).map (·.snapPending)).getLast?.getD snap)
      (d.run encoder events) := by
  induction events generalizing d snap with
  | nil => exact h
  | cons e later ih =>
    cases e with
    | turn now handOff =>
      have hturn := turn_of_ended encoder now handOff h.hand h.phase
      have hleft : Left w snap (d.turn encoder now handOff) := by
        rw [hturn]
        exact h
      exact ih hleft
    | finish now index =>
      obtain ⟨counters, handed, root, hmoved, hdrained, -⟩ := finished encoder now index d
      have hleft : Left w snap (d.moved encoder now (.finish index)) := by
        rw [hmoved]
        exact ⟨h.phase, h.hand, h.taken, h.ring, h.numbering, hdrained.trans h.drained,
          h.snapPending⟩
      exact ih hleft
    | change recording =>
      have hleft : Left w recording.snapPending
          { d with exchange := { d.exchange with recording } } :=
        ⟨h.phase, h.hand, h.taken, h.ring, h.numbering, h.drained, rfl⟩
      have hchanges : changesOf (.change recording :: later) = recording :: changesOf later := rfl
      rw [hchanges, List.map_cons, List.getLast?_cons, Option.getD_some]
      exact ih hleft

end Left

/-! ## Endings -/

end FrameServer.Logger.Drain
