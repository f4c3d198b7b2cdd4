import FrameServer.Proofs.Recording.Desk
import FrameServer.Proofs.Ring.Queue

/-!
# FrameServer.Proofs.Recording.Drain — the drain one turn after the other

The drain takes a frame out of the ring in one turn and deals with it in the next, so
that anything can come between the two. A move of the logger that takes a frame is these
two turns with nothing between them.

1. **Turns** of a drain, and what else can happen before and after a request to end.
2. **Moves** of the logger are turns.
3. **What a turn does**
4. **Runs**
-/

namespace FrameServer.Logger

/-! ## Turns -/

/-- A drain with what it works on, and what was seen of it. -/
structure Drain where
  logger : Logger
  exchange : Exchange
  /-- The frame that was taken out of the ring and is still to be dealt with. -/
  hand : Option Frame
  /-- The frames that were dealt with, each with the job that it became. -/
  taken : List (Frame × Option Job)

namespace Drain

/-- What can happen while no frame comes in. -/
inductive Event where
  /-- The drain goes on; `handOff` if a worker is idle then. -/
  | turn (now : WallTime) (handOff : Bool)
  /-- A worker finishes the job with this index. -/
  | finish (now : WallTime) (index : Nat)
  /-- Others leave the recording like this. -/
  | change (recording : Recording)
deriving DecidableEq, Repr

def phase (d : Drain) : Phase := d.logger.phase

def ring (d : Drain) : Ring := d.exchange.ring

def recording (d : Drain) : Recording := d.exchange.recording

/-- The drain has not dealt with these frames yet. -/
def pending (d : Drain) : List Frame := d.hand.toList ++ d.ring.waiting

/-- A drain that was just started beside a new ring. -/
def new (workers : Nat) (ticksPerSecond : Binary64) (requested : Nat) (width height : UInt32)
    (recording : Recording) : Drain :=
  ⟨.new workers ticksPerSecond, ⟨.empty requested width height, recording, false⟩, none, []⟩

/-- Makes a move of the logger if it is enabled. -/
def moved (encoder : Encoder) (now : WallTime) (m : Move) (d : Drain) : Drain :=
  match d.logger.move encoder now m d.exchange with
  | none => d
  | some (logger, exchange) => { d with logger, exchange }

/-- Takes the oldest frame out of the ring, if there is one. -/
def fetch (encoder : Encoder) (now : WallTime) (next : Phase) (d : Drain) : Drain :=
  match d.exchange.ring.get? with
  | (none, _) => d.moved encoder now .timeOut
  | (some frame, ring) =>
    { d with
      logger := { d.logger with phase := next }
      exchange := { d.exchange with ring }
      hand := some frame }

/-- Deals with the frame in the drain's hands, or else looks for the request or for the
next frame. -/
def turn (encoder : Encoder) (now : WallTime) (handOff : Bool) (d : Drain) : Drain :=
  match d.hand with
  | some frame =>
    let (logger, exchange) := d.logger.handle encoder handOff now frame d.exchange
    let job := d.logger.jobFor? frame d.exchange.recording
    { logger, exchange, hand := none, taken := d.taken ++ [(frame, job)] }
  | none =>
    match d.logger.phase with
    | .checking => d.moved encoder now .check
    | .waiting => d.fetch encoder now .checking
    | .flushing => d.fetch encoder now .flushing
    | .ended => d

def step (encoder : Encoder) (d : Drain) : Event → Drain
  | .turn now handOff => d.turn encoder now handOff
  | .finish now index => d.moved encoder now (.finish index)
  | .change recording => { d with exchange := { d.exchange with recording } }

def run (encoder : Encoder) (events : List Event) (d : Drain) : Drain :=
  events.foldl (step encoder) d

/-- Shutting down is asked for; what is dealt with is written down from now on. -/
def cancel (d : Drain) : Drain :=
  { d with exchange := { d.exchange with cancelled := true }, taken := [] }

/-- How often the drain goes on. -/
def turnsOf (events : List Event) : Nat :=
  events.countP fun
    | .turn _ _ => true
    | _ => false

/-- What others make of the recording. -/
def changesOf (events : List Event) : List Recording :=
  events.filterMap fun
    | .change recording => some recording
    | _ => none

/-! ## Moves -/

variable {encoder : Encoder} {now : WallTime} {handOff : Bool} {d : Drain}

/-- A look for the request and a wait in vain are one turn. -/
theorem turn_of_move {l l' : Logger} {x x' : Exchange} {m : Move} (hm : m = .check ∨ m = .timeOut)
    (hmove : l.move encoder now m x = some (l', x')) (handOff : Bool)
    (taken : List (Frame × Option Job)) :
    turn encoder now handOff ⟨l, x, none, taken⟩ = ⟨l', x', none, taken⟩ := by
  have hmoved : moved encoder now m ⟨l, x, none, taken⟩ = ⟨l', x', none, taken⟩ := by
    simp only [moved, hmove]
  rcases hm with rfl | rfl
  · have hphase : l.phase = .checking := by
      simp only [move] at hmove
      split at hmove
      · cases hmove
      · next h => exact Decidable.not_not.mp h
    simp only [turn, hphase, hmoved]
  · have hempty : x.ring.isEmpty = true := by
      simp only [move] at hmove
      split at hmove
      · assumption
      · cases hmove
    have hfetch : ∀ next, fetch encoder now next ⟨l, x, none, taken⟩ = ⟨l', x', none, taken⟩ := by
      intro next
      simp only [fetch, Ring.get?_of_isEmpty _ hempty, hmoved]
    simp only [move, hempty, if_true] at hmove
    cases hphase : l.phase with
    | waiting => simp only [turn, hphase, hfetch]
    | flushing => simp only [turn, hphase, hfetch]
    | checking =>
      rw [hphase] at hmove
      cases hmove
    | ended =>
      rw [hphase] at hmove
      cases hmove

/-- Taking a frame is two turns, with nothing in between. -/
theorem turn_turn_of_take {l l' : Logger} {x x' : Exchange}
    (hmove : l.move encoder now (.take handOff) x = some (l', x'))
    (taken : List (Frame × Option Job)) :
    ∃ frame job,
      turn encoder now handOff (turn encoder now handOff ⟨l, x, none, taken⟩) =
        ⟨l', x', none, taken ++ [(frame, job)]⟩ := by
  simp only [move] at hmove
  split at hmove
  · cases hmove
  · next hphase =>
    split at hmove
    · cases hmove
    · next frame ring hget =>
      have hhandle := Option.some.inj hmove
      cases hgoing : l.phase with
      | waiting =>
        simp only [hgoing, reduceCtorEq, if_false] at hhandle
        simp only [turn, fetch, hgoing, hget, hhandle]
        exact ⟨frame, _, rfl⟩
      | flushing =>
        simp only [hgoing, if_true] at hhandle
        simp only [turn, fetch, hgoing, hget, hhandle]
        exact ⟨frame, _, rfl⟩
      | checking =>
        rw [hgoing] at hphase
        exact absurd ⟨by rintro ⟨⟩, by rintro ⟨⟩⟩ hphase
      | ended =>
        rw [hgoing] at hphase
        exact absurd ⟨by rintro ⟨⟩, by rintro ⟨⟩⟩ hphase

/-! ## What a turn does -/

/-- The drain stands somewhere else. -/
def atPhase (next : Phase) (d : Drain) : Drain :=
  { d with logger := { d.logger with phase := next } }

/-- Where the drain goes on when it has looked for the request. -/
def told (d : Drain) : Phase :=
  if d.exchange.cancelled then if d.recording.enabled then .flushing else .ended else .waiting

theorem turn_of_checking (encoder : Encoder) (now : WallTime) (handOff : Bool)
    (hhand : d.hand = none) (hphase : d.phase = .checking) :
    d.turn encoder now handOff = d.atPhase d.told := by
  have hchecking : d.logger.phase = .checking := hphase
  simp only [turn, hhand, hchecking, moved, move, ne_eq, not_true_eq_false, if_false, atPhase,
    told, recording]
  cases d.exchange.cancelled <;> rfl

theorem turn_of_ended (encoder : Encoder) (now : WallTime) (handOff : Bool)
    (hhand : d.hand = none) (hphase : d.phase = .ended) : d.turn encoder now handOff = d := by
  have hended : d.logger.phase = .ended := hphase
  simp only [turn, hhand, hended]

/-- The drain took the oldest frame and goes on at `next`, or it found none and goes on
at `idle`. -/
inductive Fetched (next idle : Phase) (d : Drain) : Drain → Prop where
  | took (frame : Frame) (ring : Ring) (hget : d.ring.get? = (some frame, ring)) :
      Fetched next idle d
        { d.atPhase next with exchange := { d.exchange with ring }, hand := some frame }
  | foundNone (hempty : d.ring.isEmpty = true) : Fetched next idle d (d.atPhase idle)

theorem fetched_of_timeOut (next : Phase) {idle : Phase}
    (htimeOut : d.ring.isEmpty = true → d.moved encoder now .timeOut = d.atPhase idle) :
    Fetched next idle d (d.fetch encoder now next) := by
  unfold fetch
  split
  · next ring hget =>
    have hempty : d.ring.isEmpty = true := Ring.isEmpty_of_get? hget
    rw [htimeOut hempty]
    exact .foundNone hempty
  · next frame ring hget => exact .took frame ring hget

theorem turn_of_waiting (encoder : Encoder) (now : WallTime) (handOff : Bool)
    (hhand : d.hand = none) (hphase : d.phase = .waiting) :
    Fetched .checking .checking d (d.turn encoder now handOff) := by
  have hwaiting : d.logger.phase = .waiting := hphase
  simp only [turn, hhand, hwaiting]
  apply fetched_of_timeOut
  intro hempty
  have hempty : d.exchange.ring.isEmpty = true := hempty
  simp only [moved, move, hempty, hwaiting, if_true, atPhase]

theorem turn_of_flushing (encoder : Encoder) (now : WallTime) (handOff : Bool)
    (hhand : d.hand = none) (hphase : d.phase = .flushing) :
    Fetched .flushing .ended d (d.turn encoder now handOff) := by
  have hflushing : d.logger.phase = .flushing := hphase
  simp only [turn, hhand, hflushing]
  apply fetched_of_timeOut
  intro hempty
  have hempty : d.exchange.ring.isEmpty = true := hempty
  simp only [moved, move, hempty, hflushing, if_true, atPhase]

/-- The drain dealt with the frame in its hands. -/
structure Dealt (frame : Frame) (d d' : Drain) : Prop where
  hand : d'.hand = none
  phase : d'.phase = d.phase
  ring : d'.ring = d.ring
  cancelled : d'.exchange.cancelled = d.exchange.cancelled
  drained : d'.logger.counters.drained = d.logger.counters.drained + 1
  taken : ∃ job, d'.taken = d.taken ++ [(frame, job)]
  recorded : d.recording.Active → d'.recording.Active ∧
    d'.logger.accounted = d.logger.accounted + 1 ∧
    ∃ job : Job, job.frame = frame ∧ d'.taken = d.taken ++ [(frame, some job)]

theorem turn_of_hand (encoder : Encoder) (now : WallTime) (handOff : Bool) {frame : Frame}
    (hhand : d.hand = some frame) : Dealt frame d (d.turn encoder now handOff) := by
  have hturn : d.turn encoder now handOff =
      ⟨(d.logger.handle encoder handOff now frame d.exchange).1,
        (d.logger.handle encoder handOff now frame d.exchange).2, none,
        d.taken ++ [(frame, d.logger.jobFor? frame d.exchange.recording)]⟩ := by
    simp only [turn, hhand]
  have hpassed := handle_passed encoder handOff now frame d.logger d.exchange
  obtain ⟨hphase, hdrained, -, hring, hcancelled⟩ := hpassed.kept
  rw [hturn]
  refine ⟨rfl, hphase, hring, hcancelled, hdrained, ⟨_, rfl⟩, ?_⟩
  intro hactive
  obtain ⟨job, hjob⟩ : ∃ job, d.logger.jobFor? frame d.exchange.recording = some job :=
    jobFor?_of_active frame d.logger hactive
  rw [hjob] at hpassed
  obtain ⟨hactive', haccounted, -⟩ := hpassed.recorded hactive
  refine ⟨hactive', haccounted, job, frame_of_jobFor? frame hjob, ?_⟩
  rw [hjob]

/-- A worker that finishes a job changes how the job is counted, and the root. -/
theorem finished (encoder : Encoder) (now : WallTime) (index : Nat) (d : Drain) :
    ∃ counters handed root,
      d.moved encoder now (.finish index) =
        { d with
          logger := { d.logger with counters, handed }
          exchange := { d.exchange with recording := { d.recording with root } } } ∧
      counters.drained = d.logger.counters.drained ∧
      (d.moved encoder now (.finish index)).logger.accounted = d.logger.accounted := by
  unfold moved
  dsimp only [move]
  cases hjob : d.logger.handed[index]? with
  | none => exact ⟨d.logger.counters, d.logger.handed, d.recording.root, rfl, rfl, rfl⟩
  | some job =>
    obtain ⟨root, hroot, -⟩ := job.write_written encoder now d.exchange.recording
    obtain ⟨hdrained, -, haccounted⟩ := perform_counters encoder now job
      { d.logger with handed := d.logger.handed.eraseIdx index } d.exchange
    have hlength := (cons_eraseIdx_perm hjob).length_eq
    refine ⟨_, d.logger.handed.eraseIdx index, root, ?_, hdrained, ?_⟩
    · simp only [perform, hroot]
      rfl
    · simp only [haccounted]
      simp only [accounted, List.length_cons] at hlength ⊢
      omega

/-! ## Runs -/

/-- What each thing that can happen keeps, a run keeps; the drain's turns are counted. -/
theorem run_induction (P : Nat → Drain → Prop) (allowed : Recording → Prop)
    (hturn : ∀ {n d} now handOff, P n d → P (n + 1) (d.turn encoder now handOff))
    (hfinish : ∀ {n d} now index, P n d → P n (d.moved encoder now (.finish index)))
    (hchange : ∀ {n d} recording, allowed recording → P n d →
      P n { d with exchange := { d.exchange with recording } })
    {n : Nat} (h : P n d) (events : List Event)
    (hallowed : ∀ r ∈ changesOf events, allowed r) :
    P (n + turnsOf events) (d.run encoder events) := by
  induction events generalizing n d with
  | nil => exact h
  | cons e later ih =>
    cases e with
    | turn now handOff =>
      have hturns : n + turnsOf (.turn now handOff :: later) = n + 1 + turnsOf later := by
        simp only [turnsOf, List.countP_cons, if_true]
        omega
      rw [hturns]
      exact ih (hturn now handOff h) hallowed
    | finish now index => exact ih (hfinish now index h) hallowed
    | change recording =>
      have hchanges : changesOf (.change recording :: later) = recording :: changesOf later := rfl
      rw [hchanges, List.forall_mem_cons] at hallowed
      exact ih (hchange recording hallowed.1 h) hallowed.2

end Drain

end FrameServer.Logger
