import FrameServer.Server.Closing
import FrameServer.Proofs.Recording.Calls
import FrameServer.Proofs.Recording.Desk
import FrameServer.Proofs.Ring.Queue

/-!
# FrameServer.Proofs.Server.Flush — what shutting down leaves in the ring

While a server with recording on is shut down, its acquisition, its drain and its
workers go on in any order. No frame should be left in the ring. The drain takes the
request to end from the same switch as the service, though, and empties the ring
once; the acquisition is stopped later. So what is left is what came in after the
drain had ended, and the ring is empty exactly if nothing did.

1. **Pending frames** of a server.
2. **Moves**: what each of them does to frames.
3. **Watched servers**: a server and what is remembered of its frames.
4. **What every move keeps**
5. **Released servers**
-/

namespace FrameServer

/-! ## Moves of the logger -/

namespace Logger

/-- What a move of the logger does to frames while recording is active. -/
inductive Effect (l : Logger) (x : Exchange) : Move → Logger → Exchange → Prop where
  /-- The drain goes on to wait, to look, or to empty the ring. -/
  | went {m l' x'} (hm : m = .check ∨ m = .timeOut) (hphase : l.phase ≠ .ended)
      (hphase' : l'.phase ≠ .ended) (hhanded : l'.handed = l.handed) (hexchange : x' = x) :
      Effect l x m l' x'
  /-- The drain has emptied the ring and ends. -/
  | emptied {l' x'} (hphase : l.phase ≠ .ended) (hring : x.ring.isEmpty = true)
      (hphase' : l'.phase = .ended) (hhanded : l'.handed = l.handed) (hexchange : x' = x) :
      Effect l x .timeOut l' x'
  /-- A worker takes the job of a frame. -/
  | passedOn (handOff : Bool) (job : Job) {l' x'} (hphase : l.phase ≠ .ended)
      (hphase' : l'.phase ≠ .ended) (hring : x.ring.get? = (some job.frame, x'.ring))
      (hhanded : l'.handed = l.handed ++ [job])
      (hinlined : l'.counters.inlined = l.counters.inlined)
      (hactive : x'.recording.Active) : Effect l x (.take handOff) l' x'
  /-- The drain writes a frame. -/
  | inlined (handOff : Bool) (job : Job) {l' x'} (hphase : l.phase ≠ .ended)
      (hphase' : l'.phase ≠ .ended) (hring : x.ring.get? = (some job.frame, x'.ring))
      (hhanded : l'.handed = l.handed)
      (hinlined : l'.counters.inlined = l.counters.inlined + 1)
      (hactive : x'.recording.Active) : Effect l x (.take handOff) l' x'
  /-- A worker writes a frame. -/
  | finished (index : Nat) (job : Job) {l' x'} (hjob : l.handed[index]? = some job)
      (hphase : l'.phase = l.phase) (hhanded : l'.handed = l.handed.eraseIdx index)
      (hring : x'.ring = x.ring) (hactive : x'.recording.Active) :
      Effect l x (.finish index) l' x'

variable {encoder : Encoder} {now : WallTime} {l l' : Logger} {x x' : Exchange}

theorem move_effect {m : Move} (hactive : x.recording.Active)
    (hmove : l.move encoder now m x = some (l', x')) : Effect l x m l' x' := by
  unfold move at hmove
  cases m with
  | check =>
    dsimp only at hmove
    split at hmove
    · cases hmove
    · next hphase =>
      rw [Decidable.not_not] at hphase
      have hgoing : l.phase ≠ .ended := by
        rw [hphase]
        rintro ⟨⟩
      -- while recording is on, the drain does not end without emptying the ring
      simp only [hactive.enabled, if_true] at hmove
      cases hmove
      refine .went (.inl rfl) hgoing ?_ rfl rfl
      dsimp only
      split <;> rintro ⟨⟩
  | take handOff =>
    dsimp only at hmove
    split at hmove
    · cases hmove
    · next hphase =>
      have hgoing : l.phase ≠ .ended := by
        intro hended
        rw [hended] at hphase
        exact hphase ⟨by rintro ⟨⟩, by rintro ⟨⟩⟩
      split at hmove
      · cases hmove
      · next frame ring hget =>
        have hnext : (if l.phase = .flushing then Phase.flushing else .checking) ≠ .ended := by
          split <;> rintro ⟨⟩
        generalize (if l.phase = .flushing then Phase.flushing else .checking) = phase
          at hmove hnext
        have hrest : ({ x with ring } : Exchange).recording.Active := hactive
        have hpassed := handle_passed encoder handOff now frame { l with phase } { x with ring }
        obtain ⟨job, hnew⟩ := jobFor?_of_active frame { l with phase } hrest
        obtain rfl := frame_of_jobFor? frame hnew
        rw [hnew] at hpassed
        obtain ⟨hphase', -, -, hring, -⟩ := hpassed.kept
        obtain ⟨hafter, -, hjob⟩ := hpassed.recorded hrest
        generalize handle encoder handOff now job.frame { l with phase } { x with ring } = handled
          at hmove hphase' hring hafter hjob
        cases hmove
        rw [← show _ = ring from hring] at hget
        rcases hjob with ⟨hhanded, hinlined⟩ | ⟨hhanded, hinlined⟩
        · exact .passedOn handOff job hgoing (hphase' ▸ hnext) hget hhanded hinlined hafter
        · exact .inlined handOff job hgoing (hphase' ▸ hnext) hget hhanded hinlined hafter
  | timeOut =>
    dsimp only at hmove
    split at hmove
    · next hempty =>
      split at hmove
      · next hphase =>
        cases hmove
        exact .went (.inr rfl) (by rw [hphase]; rintro ⟨⟩) (by rintro ⟨⟩) rfl rfl
      · next hphase =>
        cases hmove
        exact .emptied (by rw [hphase]; rintro ⟨⟩) hempty rfl rfl rfl
      · cases hmove
    · cases hmove
  | finish index =>
    dsimp only at hmove
    split at hmove
    · cases hmove
    · next job hjob =>
      cases hmove
      obtain ⟨root, hroot, -⟩ := job.write_written encoder now x.recording
      refine .finished index job hjob rfl rfl rfl ?_
      show (job.write encoder now x.recording).2.Active
      rw [hroot]
      exact hactive.withRoot root

end Logger

namespace Ring

variable (r : Ring) (header : Header) (data : Bytes)

/-- A frame that is put in goes behind those that wait. The first of these goes if it
is counted as dropped. -/
theorem put_waiting_gone (hc : r.Coherent) :
    (if r.dropped < (r.put header data).dropped then r.waiting.take 1 else []) ++
        (r.put header data).waiting = r.waiting ++ [r.deposit header data] := by
  cases hfull : r.full with
  | true =>
    have hdropped : (r.put header data).dropped = r.dropped + 1 := by simp [put, hfull]
    rw [hdropped, if_pos (Nat.lt_succ_self _), put_waiting_of_full r header data hc hfull,
      ← List.append_assoc, ← List.drop_one, List.take_append_drop]
  | false =>
    have hdropped : (r.put header data).dropped = r.dropped := by simp [put, hfull]
    rw [hdropped, if_neg (Nat.lt_irrefl _), put_waiting_of_room r header data hc hfull,
      List.nil_append]

theorem put_waiting_ne_nil : (r.put header data).waiting ≠ [] := by
  intro hnone
  have hbusy := put_not_isEmpty r ⟨header, data⟩
  rw [(waiting_eq_nil_iff _).mp hnone] at hbusy
  cases hbusy

end Ring

/-! ## Pending frames -/

namespace Server

variable {world : Surroundings} {config : Config} {platform : Platform}

/-- Opening the ports and starting to take frames change neither the ring nor the
recording. -/
theorem assemble_started {station : Station PatternCamera} {server : Server PatternCamera}
    (hstart : assemble world config station platform = .started server) :
    server.station.exchange = station.exchange ∧ server.logger.phase = .checking := by
  unfold assemble at hstart
  split at hstart
  · cases hstart
  · unfold begin Station.startImaging at hstart
    dsimp only at hstart
    split at hstart
    · next hstarted =>
      split at hstarted
      · cases hstarted
        cases hstart
        exact ⟨rfl, rfl⟩
      · cases hstarted
    · unfold abandon at hstart
      cases hstart

theorem prepare_started {station : Station PatternCamera} {server : Server PatternCamera}
    (hon : config.recording.enabled = true)
    (hoff : station.exchange.recording.enabled = false)
    (hstart : prepare world config station platform = .started server) :
    server.station.exchange.recording.Active ∧
      server.station.exchange.ring = station.exchange.ring ∧
      server.logger.phase = .checking := by
  unfold prepare Station.setRecording at hstart
  rw [if_pos hon] at hstart
  rcases station.exchange.recording.setEnabled_eq station.settings world.wall hoff with
    ⟨-, hset⟩ | ⟨-, e, hset⟩
  · rw [hset] at hstart
    obtain ⟨hexchange, hphase⟩ := assemble_started hstart
    rw [hexchange]
    exact ⟨⟨rfl, _, rfl⟩, rfl, hphase⟩
  · rw [hset] at hstart
    cases hstart

end Server

namespace Server.Closing

def ring (c : Closing) : Ring := c.server.station.exchange.ring

def recording (c : Closing) : Recording := c.server.station.exchange.recording

def logger (c : Closing) : Logger := c.server.logger

/-- The frames that were put into the ring and are still to be written. -/
def pending (c : Closing) : List Frame := c.ring.waiting ++ c.logger.handed.map (·.frame)

/-- A server that nobody has asked to end, with recording on. -/
structure Running (c : Closing) : Prop where
  serving : c.stage = .serving
  draining : c.logger.phase ≠ .ended
  active : c.recording.Active
  coherent : c.ring.Coherent

/-- A server that was started with recording on records from the start. -/
theorem running_of_start {world : Surroundings} {config : Config} {platform : Platform}
    {camera : PatternCamera} {server : Server PatternCamera}
    (hon : config.recording.enabled = true)
    (hstart : Server.start world config camera platform = .started server) :
    Running ⟨server, .serving⟩ := by
  unfold Server.start at hstart
  split at hstart
  · cases hstart
  · split at hstart
    · cases hstart
    · next ring hring =>
      have hring := Ring.create_eq_empty hring
      split at hstart
      · cases hstart
      · next recording hrecording =>
        obtain ⟨hactive, hsame, hphase⟩ :=
          prepare_started hon (Recording.enabled_of_new hrecording) hstart
        refine ⟨rfl, ?_, hactive, ?_⟩
        · show server.logger.phase ≠ .ended
          rw [hphase]
          rintro ⟨⟩
        · show server.station.exchange.ring.Coherent
          rw [hsame]
          show ring.Coherent
          rw [hring]
          exact (Ring.Represents.empty _ _ _).coherent

/-! ## Moves of a server -/

variable {c c' : Closing} {wall : WallTime} {now : Nat}

/-- The acquisition does nothing to the frames, or it puts one into the ring. -/
theorem acquire_effect {m : PatternCamera.Move} (hmove : c.acquire now m = some c') :
    c'.logger = c.logger ∧ c'.stage = c.stage ∧ c'.recording = c.recording ∧
      (c'.ring = c.ring ∨ ∃ header data, c'.ring = c.ring.put header data) := by
  unfold acquire at hmove
  obtain ⟨⟨camera, shot⟩, -, rfl⟩ := Option.map_eq_some_iff.mp hmove
  cases shot with
  | none => exact ⟨rfl, rfl, rfl, .inl rfl⟩
  | some shot => exact ⟨rfl, rfl, rfl, .inr ⟨_, _, rfl⟩⟩

theorem log_effect {m : Logger.Move} (hactive : c.recording.Active)
    (hmove : c.log wall m = some c') :
    c'.stage = c.stage ∧ Logger.Effect c.logger c.server.station.exchange m c'.logger
      c'.server.station.exchange := by
  unfold log at hmove
  obtain ⟨⟨logger, exchange⟩, hlogger, rfl⟩ := Option.map_eq_some_iff.mp hmove
  exact ⟨rfl, Logger.move_effect hactive hlogger⟩

/-- Going on does nothing to the frames, and waits for the drain and the workers. -/
theorem advance_effect (hmove : c.advance = some c') :
    c'.logger = c.logger ∧ c'.recording = c.recording ∧ c'.ring = c.ring ∧
      (c'.stage = .loggerEnded → c.logger.isDone = true) ∧
      (c'.stage = .released → c.stage = .loggerEnded) := by
  unfold advance at hmove
  split at hmove
  · cases hmove
    exact ⟨rfl, rfl, rfl, by rintro ⟨⟩, by rintro ⟨⟩⟩
  · cases hmove
    exact ⟨rfl, rfl, rfl, by rintro ⟨⟩, by rintro ⟨⟩⟩
  · cases hmove
    exact ⟨rfl, rfl, rfl, by rintro ⟨⟩, by rintro ⟨⟩⟩
  · obtain ⟨camera, -, rfl⟩ := Option.map_eq_some_iff.mp hmove
    exact ⟨rfl, rfl, rfl, by rintro ⟨⟩, by rintro ⟨⟩⟩
  · split at hmove
    · next hdone =>
      cases hmove
      exact ⟨rfl, rfl, rfl, fun _ => hdone, by rintro ⟨⟩⟩
    · cases hmove
  · next hstage =>
    cases hmove
    exact ⟨rfl, rfl, rfl, by rintro ⟨⟩, fun _ => hstage⟩
  · cases hmove

/-! ## Watched servers -/

/-- A move at its moments of the wall clock and of the capture clock. -/
structure Turn where
  move : Move
  wall : WallTime
  now : Nat
deriving DecidableEq, Repr

/-- A server and what is remembered of its frames. -/
structure Watched where
  closing : Closing
  /-- The frames that the acquisition put into the ring. -/
  committed : List Frame
  /-- The frames that gave their places in the ring to newer ones. -/
  evicted : List Frame
  /-- The frames whose jobs were written. -/
  written : List Frame
  /-- The frames that the acquisition put into the ring after the drain had ended. -/
  late : List Frame

namespace Watched

/-- Nothing is remembered yet. -/
def new (c : Closing) : Watched := ⟨c, [], [], [], []⟩

/-- The acquisition moved. A frame that it put into the ring is the latest there, and
one that had to give its place was the oldest. -/
def acquired (c : Closing) (w : Watched) : Watched :=
  let arrived :=
    if w.closing.ring.written < c.ring.written then c.ring.peekLatest?.toList else []
  let gone :=
    if w.closing.ring.dropped < c.ring.dropped then w.closing.ring.waiting.take 1 else []
  { w with
    closing := c
    committed := w.committed ++ arrived
    evicted := w.evicted ++ gone
    late := if w.closing.logger.phase = .ended then w.late ++ arrived else w.late }

/-- The logger moved. A frame that it took is written at once if no worker is idle. -/
def logged (m : Logger.Move) (c : Closing) (w : Watched) : Watched :=
  let passed := match m with
    | .take _ =>
      if w.closing.logger.counters.inlined < c.logger.counters.inlined then
        w.closing.ring.get?.1.toList
      else []
    | .finish index => (w.closing.logger.handed[index]?.map (·.frame)).toList
    | _ => []
  { w with closing := c, written := w.written ++ passed }

/-- Makes a move if it is enabled. -/
def step (w : Watched) (t : Turn) : Watched :=
  match w.closing.move t.wall t.now t.move with
  | none => w
  | some c =>
    match t.move with
    | .acquisition _ => w.acquired c
    | .logger m => w.logged m c
    | .closer => { w with closing := c }

def run (c : Closing) (turns : List Turn) : Watched := turns.foldl step (new c)

/-! ## What every move keeps -/

/-- Recording stays on. Every frame that was pending or came in is evicted, written or
still pending. The drain has emptied the ring when it ends, so that what waits in the
ring then came in late. -/
structure Kept (start : Closing) (w : Watched) : Prop where
  active : w.closing.recording.Active
  coherent : w.closing.ring.Coherent
  balance : (start.pending ++ w.committed).Perm (w.evicted ++ w.written ++ w.closing.pending)
  late_nil : w.closing.logger.phase ≠ .ended → w.late = []
  waiting_late : w.closing.logger.phase = .ended → w.closing.ring.waiting <:+ w.late
  waiting_nil : w.closing.logger.phase = .ended → w.closing.ring.waiting = [] → w.late = []
  done : w.closing.stage = .loggerEnded ∨ w.closing.stage = .released →
    w.closing.logger.isDone = true

namespace Kept

variable {start : Closing} {w : Watched}

theorem new (h : Running c) : Kept c (.new c) := by
  refine ⟨h.active, h.coherent, ?_, fun _ => rfl, ?_, ?_, ?_⟩
  · show (c.pending ++ []).Perm c.pending
    rw [List.append_nil]
  · intro hended
    exact absurd hended h.draining
  · intro hended
    exact absurd hended h.draining
  · intro hstage
    rw [show (Watched.new c).closing.stage = .serving from h.serving] at hstage
    rcases hstage with hstage | hstage <;> cases hstage

/-- A frame that is put into the ring is the newest there, and the oldest one goes if
there is no room. -/
theorem arrived (h : Kept start w) (hlogger : c'.logger = w.closing.logger)
    (hstage : c'.stage = w.closing.stage) (hrecording : c'.recording = w.closing.recording)
    {header : Header} {data : Bytes} (hring : c'.ring = w.closing.ring.put header data) :
    Kept start (w.acquired c') := by
  generalize hframe : w.closing.ring.deposit header data = frame
  have hlatest : c'.ring.peekLatest? = some frame := by
    rw [hring, ← hframe]
    exact w.closing.ring.put_peekLatest? header data
  have hwritten : w.closing.ring.written < c'.ring.written := by
    rw [hring]
    exact Nat.lt_succ_self _
  have hwaiting := w.closing.ring.put_waiting_gone header data h.coherent
  rw [← hring, hframe] at hwaiting
  have hbusy : c'.ring.waiting ≠ [] := by
    rw [hring]
    exact w.closing.ring.put_waiting_ne_nil header data
  unfold Watched.acquired
  simp only [hwritten, if_true, hlatest, Option.toList_some]
  generalize (if w.closing.ring.dropped < c'.ring.dropped then w.closing.ring.waiting.take 1
    else []) = gone at hwaiting ⊢
  refine ⟨?_, ?_, ?_, ?_, ?_, ?_, ?_⟩
  · rw [hrecording]
    exact h.active
  · rw [hring]
    exact w.closing.ring.put_coherent header data
  · -- each frame is counted as often on both sides
    rw [List.perm_iff_count]
    intro f
    have hcount := List.perm_iff_count.mp h.balance f
    have hkept := congrArg (List.count f) hwaiting
    simp only [pending, hlogger, List.count_append] at hcount hkept ⊢
    omega
  · rw [hlogger]
    intro hgoing
    rw [if_neg hgoing]
    exact h.late_nil hgoing
  · rw [hlogger]
    intro hended
    rw [if_pos hended]
    -- what the frame leaves in place is behind what went
    have hsuffix : c'.ring.waiting <:+ w.closing.ring.waiting ++ [frame] := ⟨gone, hwaiting⟩
    refine hsuffix.trans ?_
    obtain ⟨before, hbefore⟩ := h.waiting_late hended
    exact ⟨before, by rw [← hbefore, List.append_assoc]⟩
  · intro _ hnone
    exact absurd hnone hbusy
  · rw [hstage, hlogger]
    exact h.done

/-- The acquisition keeps the balance. -/
theorem acquired (h : Kept start w) (hmove : w.closing.acquire now m = some c') :
    Kept start (w.acquired c') := by
  obtain ⟨hlogger, hstage, hrecording, hring | ⟨header, data, hring⟩⟩ := acquire_effect hmove
  · unfold Watched.acquired
    simp only [hring, Nat.lt_irrefl, if_false, List.append_nil, ite_self]
    refine ⟨hrecording ▸ h.active, hring ▸ h.coherent, ?_, ?_, ?_, ?_, ?_⟩
    · simpa only [pending, hlogger, hring] using h.balance
    · rw [hlogger]
      exact h.late_nil
    · rw [hlogger, hring]
      exact h.waiting_late
    · rw [hlogger, hring]
      exact h.waiting_nil
    · rw [hstage, hlogger]
      exact h.done
  · exact h.arrived hlogger hstage hrecording hring

/-- Shutting down waits for the drain. -/
theorem not_over (h : Kept start w) (hphase : w.closing.logger.phase ≠ .ended) :
    ¬ (w.closing.stage = .loggerEnded ∨ w.closing.stage = .released) := by
  intro hover
  have hended := h.done hover
  rw [Logger.isDone, Bool.and_eq_true, decide_eq_true_iff] at hended
  exact hphase hended.1

/-- While the drain goes on, nothing comes in late. -/
theorem going (h : Kept start w) (hphase : w.closing.logger.phase ≠ .ended) {w' : Watched}
    (hphase' : w'.closing.logger.phase ≠ .ended) (hstage : w'.closing.stage = w.closing.stage)
    (hlate : w'.late = w.late) (hactive : w'.closing.recording.Active)
    (hcoherent : w'.closing.ring.Coherent)
    (hbalance : (start.pending ++ w'.committed).Perm
      (w'.evicted ++ w'.written ++ w'.closing.pending)) : Kept start w' := by
  refine ⟨hactive, hcoherent, hbalance, ?_, ?_, ?_, ?_⟩
  · intro _
    rw [hlate]
    exact h.late_nil hphase
  · intro hended
    exact absurd hended hphase'
  · intro hended
    exact absurd hended hphase'
  · rw [hstage]
    intro hover
    exact absurd hover (h.not_over hphase)

/-- The drain takes a frame: it is written then, or a worker has it. -/
theorem took (h : Kept start w) (hphase : w.closing.logger.phase ≠ .ended)
    (hphase' : c'.logger.phase ≠ .ended) (hstage : c'.stage = w.closing.stage)
    (hactive : c'.recording.Active) {frame : Frame}
    (hget : w.closing.ring.get? = (some frame, c'.ring)) {written : List Frame}
    (hjob : (written ++ c'.logger.handed.map (·.frame)).Perm
      (w.written ++ w.closing.logger.handed.map (·.frame) ++ [frame])) :
    Kept start { w with closing := c', written } := by
  obtain ⟨hcoherent, hwaiting⟩ := Ring.waiting_of_get? h.coherent hget
  refine h.going hphase hphase' hstage rfl hactive hcoherent ?_
  rw [List.perm_iff_count]
  intro f
  have hcount := List.perm_iff_count.mp h.balance f
  have htook := List.perm_iff_count.mp hjob f
  simp only [pending, hwaiting, List.count_append, List.count_cons, List.count_nil]
    at hcount htook ⊢
  omega

/-- The drain ends with nothing in the ring. -/
theorem emptied (h : Kept start w) (hphase : w.closing.logger.phase ≠ .ended)
    (hempty : c'.ring.isEmpty = true) (hstage : c'.stage = w.closing.stage)
    (hactive : c'.recording.Active) (hcoherent : c'.ring.Coherent)
    (hpending : c'.pending = w.closing.pending) : Kept start { w with closing := c' } := by
  have hlate := h.late_nil hphase
  refine ⟨hactive, hcoherent, ?_, fun _ => hlate, ?_, fun _ _ => hlate, ?_⟩
  · show (start.pending ++ w.committed).Perm (w.evicted ++ w.written ++ c'.pending)
    rw [hpending]
    exact h.balance
  · intro _
    show c'.ring.waiting <:+ _
    rw [(Ring.waiting_eq_nil_iff _).mpr hempty]
    exact List.nil_suffix
  · show c'.stage = _ ∨ c'.stage = _ → _
    rw [hstage]
    intro hover
    exact absurd hover (h.not_over hphase)

/-- A worker finishes a job, also after the drain has ended. -/
theorem finished (h : Kept start w) {index : Nat} {job : Logger.Job}
    (hjob : w.closing.logger.handed[index]? = some job)
    (hphase : c'.logger.phase = w.closing.logger.phase)
    (hhanded : c'.logger.handed = w.closing.logger.handed.eraseIdx index)
    (hring : c'.ring = w.closing.ring) (hstage : c'.stage = w.closing.stage)
    (hactive : c'.recording.Active) :
    Kept start { w with closing := c', written := w.written ++ [job.frame] } := by
  have hperm := Logger.cons_eraseIdx_perm hjob
  refine ⟨hactive, hring ▸ h.coherent, ?_, ?_, ?_, ?_, ?_⟩
  · rw [List.perm_iff_count]
    intro f
    have hcount := List.perm_iff_count.mp h.balance f
    have htaken := List.perm_iff_count.mp (hperm.map (·.frame)) f
    simp only [pending, hring, hhanded, List.map_cons, List.count_append, List.count_cons,
      List.count_nil] at hcount htaken ⊢
    omega
  · rw [hphase]
    exact h.late_nil
  · rw [hphase, hring]
    exact h.waiting_late
  · rw [hphase, hring]
    exact h.waiting_nil
  · rw [hstage]
    intro hover
    -- the workers have no jobs then
    have hended := h.done hover
    rw [Logger.isDone, Bool.and_eq_true, List.isEmpty_iff] at hended
    rw [hended.2] at hjob
    cases hjob

/-- The logger keeps the balance. -/
theorem logged (h : Kept start w) {m : Logger.Move} (hmove : w.closing.log wall m = some c') :
    Kept start (w.logged m c') := by
  obtain ⟨hstage, heffect⟩ := log_effect h.active hmove
  unfold Watched.logged
  cases heffect with
  | went hm hphase hphase' hhanded hexchange =>
    have hrecording : c'.recording = w.closing.recording := congrArg Exchange.recording hexchange
    have hring : c'.ring = w.closing.ring := congrArg Exchange.ring hexchange
    refine h.going hphase hphase' hstage rfl (hrecording ▸ h.active) (hring ▸ h.coherent) ?_
    have hpending : c'.pending = w.closing.pending := by rw [pending, hring, hhanded, pending]
    rcases hm with rfl | rfl
    all_goals
      simp only [List.append_nil, hpending]
      exact h.balance
  | emptied hphase hempty hphase' hhanded hexchange =>
    have hrecording : c'.recording = w.closing.recording := congrArg Exchange.recording hexchange
    have hring : c'.ring = w.closing.ring := congrArg Exchange.ring hexchange
    have hpending : c'.pending = w.closing.pending := by rw [pending, hring, hhanded, pending]
    simp only [List.append_nil]
    exact h.emptied hphase (hring ▸ hempty) hstage (hrecording ▸ h.active)
      (hring ▸ h.coherent) hpending
  | passedOn handOff job hphase hphase' hget hhanded hinlined hactive =>
    simp only [hinlined, Nat.lt_irrefl, if_false, List.append_nil]
    refine h.took hphase hphase' hstage hactive hget ?_
    rw [hhanded, List.map_append, List.append_assoc]
    exact .refl _
  | inlined handOff job hphase hphase' hget hhanded hinlined hactive =>
    have hget : w.closing.ring.get? = (some job.frame, c'.ring) := hget
    simp only [hinlined, Nat.lt_succ_self, if_true, hget, Option.toList_some]
    refine h.took hphase hphase' hstage hactive hget ?_
    rw [hhanded, List.append_assoc, List.append_assoc]
    exact (List.perm_append_comm).append_left _
  | finished index job hjob hphase hhanded hring hactive =>
    simp only [hjob, Option.map_some, Option.toList_some]
    exact h.finished hjob hphase hhanded hring hstage hactive

/-- The one who shuts the server down keeps the balance. -/
theorem advanced (h : Kept start w) (hmove : w.closing.advance = some c') :
    Kept start { w with closing := c' } := by
  obtain ⟨hlogger, hrecording, hring, hended, hreleased⟩ := advance_effect hmove
  refine ⟨hrecording ▸ h.active, hring ▸ h.coherent, ?_, ?_, ?_, ?_, ?_⟩
  · simpa only [pending, hlogger, hring] using h.balance
  · rw [hlogger]
    exact h.late_nil
  · rw [hlogger, hring]
    exact h.waiting_late
  · rw [hlogger, hring]
    exact h.waiting_nil
  · rw [hlogger]
    rintro (hstage | hstage)
    · exact hended hstage
    · exact h.done (.inl (hreleased hstage))

theorem step (h : Kept start w) (t : Turn) : Kept start (w.step t) := by
  unfold Watched.step
  cases hmove : w.closing.move t.wall t.now t.move with
  | none => exact h
  | some c =>
    cases ht : t.move with
    | acquisition m =>
      rw [ht] at hmove
      exact h.acquired hmove
    | logger m =>
      rw [ht] at hmove
      exact h.logged hmove
    | closer =>
      rw [ht] at hmove
      exact h.advanced hmove

theorem run (h : Running c) (turns : List Turn) : Kept c (Watched.run c turns) := by
  have hkept := Kept.new h
  unfold Watched.run
  generalize Watched.new c = w at hkept
  induction turns generalizing w with
  | nil => exact hkept
  | cons t later ih => exact ih (w.step t) (hkept.step t)

end Kept

/-! ## Released servers -/

/-- Nothing is left in the ring, and every frame that was pending or came in was
evicted or written. -/
structure Flushed (start : Closing) (w : Watched) : Prop where
  isEmpty : w.closing.ring.isEmpty = true
  balance : (start.pending ++ w.committed).Perm (w.evicted ++ w.written)

/-- Once a server is released, each frame was evicted or written or is left in the
ring. Those that are left came in after the drain had ended, and nothing is left
exactly if nothing came in then. -/
theorem flushed_iff_none_late (h : Running c) (turns : List Turn)
    (hreleased : (run c turns).closing.stage = .released) :
    let w := run c turns
    (c.pending ++ w.committed).Perm (w.evicted ++ w.written ++ w.closing.ring.waiting) ∧
      w.closing.ring.waiting <:+ w.late ∧ (Flushed c w ↔ w.late = []) := by
  intro w
  have hkept : Kept c w := .run h turns
  have hdone := hkept.done (.inr hreleased)
  rw [Logger.isDone, Bool.and_eq_true, decide_eq_true_iff, List.isEmpty_iff] at hdone
  obtain ⟨hended, hhanded⟩ := hdone
  have hpending : w.closing.pending = w.closing.ring.waiting := by
    rw [pending, hhanded, List.map_nil, List.append_nil]
  have hbalance := hkept.balance
  rw [hpending] at hbalance
  refine ⟨hbalance, hkept.waiting_late hended, ?_⟩
  constructor
  · intro hflushed
    exact hkept.waiting_nil hended ((Ring.waiting_eq_nil_iff _).mpr hflushed.isEmpty)
  · intro hlate
    have hwaiting := hkept.waiting_late hended
    rw [hlate, List.suffix_nil] at hwaiting
    rw [hwaiting, List.append_nil] at hbalance
    exact ⟨(Ring.waiting_eq_nil_iff _).mp hwaiting, hbalance⟩

/-- A server that records frames of one pixel, and has taken none yet. -/
def onePixel : Closing where
  server :=
    { station := .new
        { PatternCamera.new with
          settings := { Settings.blank with width := 1, height := 1 }
          configured := true
          acquisition := some ⟨.freerun, false, false, .checking⟩ }
        ⟨.empty 4 1 1, ⟨"frames", .folder [] [], true, false, some ⟨1, 0⟩, 2⟩, false⟩
      logger := .new 0 ⟨0⟩
      service := .new {}
      encoder := .raw "raw" [] }
  stage := .serving

theorem running_onePixel : Running onePixel := by
  refine ⟨rfl, ?_, ⟨rfl, ⟨1, 0⟩, rfl⟩, ?_⟩
  · rintro ⟨⟩
  · rintro ⟨⟩

/-- The acquisition takes a frame and is stopped before the drain empties the ring. -/
theorem flushed_of_drain_after_stop :
    let turns : List Turn := [.acquisition .check, .acquisition .wake, .acquisition .deliver,
      .closer, .closer, .closer, .acquisition .check, .closer, .logger .check,
      .logger (.take false), .logger .timeOut, .closer, .closer].map (⟨·, 0, 0⟩)
    Running onePixel ∧ (run onePixel turns).closing.stage = .released ∧
      Flushed onePixel (run onePixel turns) ∧
      (run onePixel turns).written.map (·.header.frameId) = [1] := by
  intro turns
  have hreleased : (run onePixel turns).closing.stage = .released := by decide +kernel
  have hlate : (run onePixel turns).late = [] := by decide +kernel
  obtain ⟨-, -, hflushed⟩ := flushed_iff_none_late running_onePixel turns hreleased
  refine ⟨running_onePixel, hreleased, hflushed.mpr hlate, ?_⟩
  decide +kernel

/-- The drain empties the ring as soon as it is asked to, and the acquisition takes a
frame before it is stopped: the frame stays in the ring. -/
theorem not_flushed_of_frame_before_stop :
    let turns : List Turn := [.closer, .logger .check, .logger .timeOut, .acquisition .check,
      .acquisition .wake, .acquisition .deliver, .closer, .closer, .acquisition .check, .closer,
      .closer, .closer].map (⟨·, 0, 0⟩)
    Running onePixel ∧ (run onePixel turns).closing.stage = .released ∧
      ¬ Flushed onePixel (run onePixel turns) := by
  intro turns
  refine ⟨running_onePixel, by decide +kernel, ?_⟩
  intro hflushed
  have hleft : (run onePixel turns).closing.ring.isEmpty = false := by decide +kernel
  rw [hflushed.isEmpty] at hleft
  cases hleft

end Watched

end Server.Closing

end FrameServer
