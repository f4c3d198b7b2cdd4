import FrameServer.Proofs.Recording.Calls
import FrameServer.Proofs.Recording.Desk
import FrameServer.Proofs.Recording.Numbers

/-!
# FrameServer.Proofs.Recording.Bench — a logger with its workers

Calls to the recording, drained frames and workers that finish come in any order. For
each drained frame it is chosen whether a worker is idle then, and for each worker that
finishes which of the jobs in other hands it had. What becomes of the jobs is seen from
the counters and from the root only.

1. **Events** at a bench, among them calls while the root is out of reach.
2. **Benches** and what is written down about their jobs.
3. **Calls**: what one can do to the session and to the root.
-/

namespace FrameServer

open Logger (Job)

/-! ## Events -/

namespace Recording

/-- A call while the root may be out of reach; it is back afterwards as it was. -/
def callDuring (outage : Option Outage) (c : Call) (r : Recording) : Recording :=
  match outage with
  | none => r.call c
  | some outage => { ({ r with root := outage.root } : Recording).call c with root := r.root }

/-- A frame that is drained now is to be recorded. -/
def records (r : Recording) : Bool := r.enabled || r.snapPending

/-- The session that a call withdraws together with its folder. -/
def withdrawnBy (outage : Option Outage) (c : Call) (r : Recording) : Option Session :=
  if outage = none ∧ c.op = .cancelSnap ∧ r.snapPending = true then r.session else none

end Recording

namespace Bench

/-- What can happen at a bench. -/
inductive Event where
  | call (c : Recording.Call) (outage : Option Outage)
  /-- A frame is drained; `handOff` if a worker is idle then. -/
  | drain (handOff : Bool) (now : WallTime) (frame : Frame)
  /-- A worker finishes the job with this index. -/
  | finish (index : Nat) (now : WallTime)
deriving DecidableEq, Repr

/-- The frame that is drained. -/
def Event.frame? : Event → Option Frame
  | drain _ _ frame => some frame
  | _ => none

/-- The frames that are drained in a row of events. -/
def framesOf (events : List Event) : List Frame := events.filterMap Event.frame?

end Bench

/-! ## Benches -/

namespace Logger

/-- A job that is passed on now is taken by a worker. -/
def accepts (handOff : Bool) (l : Logger) : Bool := handOff && l.handed.length < l.workers

/-- How a job was counted between two moments: as logged or as an error, if at all. -/
def Counters.outcome? (before after : Counters) : Option Bool :=
  if before.logged < after.logged then some true
  else if before.errors < after.errors then some false
  else none

/-- Who writes a job. -/
inductive Writer where
  | drain
  | worker
deriving DecidableEq, Repr

/-- A job that was written, and whether it was counted as logged. -/
structure Write where
  writer : Writer
  job : Job
  now : WallTime
  logged : Bool
deriving DecidableEq, Repr

/-- The jobs that the drain or the workers wrote. -/
def jobsBy (writer : Writer) (written : List Write) : List Job :=
  (written.filter (·.writer = writer)).map Write.job

end Logger

open Logger (Write Writer jobsBy)

/-- A logger with its workers, and what was seen of the jobs. -/
structure Bench where
  logger : Logger
  exchange : Exchange
  /-- The jobs that workers took. -/
  accepted : List Job
  /-- The jobs that no worker was there for. -/
  refused : List Job
  /-- The number of drained frames that became no job. -/
  skipped : Nat
  written : List Write
  /-- The sessions that were withdrawn together with their folders. -/
  withdrawn : List Session

namespace Bench

def start (workers : Nat) (ticksPerSecond : Binary64) (x : Exchange) : Bench :=
  ⟨.new workers ticksPerSecond, x, [], [], 0, [], []⟩

/-- The bench after the logger dealt with a job, which was written if the counters say
so. -/
def moved (writer : Writer) (now : WallTime) (job : Job) (after : Logger × Exchange)
    (b : Bench) : Bench :=
  { b with
    logger := after.1
    exchange := after.2
    written := b.written ++
      ((b.logger.counters.outcome? after.1.counters).map (⟨writer, job, now, ·⟩)).toList }

def step (encoder : Encoder) (b : Bench) : Event → Bench
  | .call c outage =>
    { b with
      exchange := { b.exchange with recording := b.exchange.recording.callDuring outage c }
      withdrawn := b.withdrawn ++ (b.exchange.recording.withdrawnBy outage c).toList }
  | .drain handOff now frame =>
    let after := b.logger.handle encoder handOff now frame b.exchange
    match b.logger.jobFor? frame b.exchange.recording with
    | none => { b with logger := after.1, exchange := after.2, skipped := b.skipped + 1 }
    | some job =>
      let b' := b.moved .drain now job after
      if b.logger.accepts handOff then { b' with accepted := b.accepted ++ [job] }
      else { b' with refused := b.refused ++ [job] }
  | .finish index now =>
    match b.logger.handed[index]?, b.logger.move encoder now (.finish index) b.exchange with
    | some job, some after => b.moved .worker now job after
    | _, _ => b

def run (encoder : Encoder) (events : List Event) (b : Bench) : Bench :=
  events.foldl (step encoder) b

def root (b : Bench) : Root := b.exchange.recording.root

end Bench

/-! ## Calls -/

namespace Recording

/-- What a call can do to the session and to the root. -/
inductive Turned (outage : Option Outage) (c : Call) (r : Recording) : Recording → Prop where
  | opened (camera : Settings) (now : WallTime) (enabled snapPending : Bool)
      (hfolder : r.root.isFolder = true) :
      Turned outage c r { r.opened camera now with enabled, snapPending }
  | withdrawn (hreach : outage = none) (hop : c.op = .cancelSnap)
      (hpending : r.snapPending = true) (s : Session) (hs : r.session = some s) :
      Turned outage c r
        { r with snapPending := false, session := none, root := r.root.remove s }
  | kept (r' : Recording) (hpath : r'.path = r.path) (hroot : r'.root = r.root)
      (hnext : r.nextId ≤ r'.nextId) (hsession : ∀ s, r'.session = some s → r.session = some s)
      (hrecords : r'.records = true → r.records = true) : Turned outage c r r'

variable {outage : Option Outage} {c : Call} {r r' : Recording}

/-- A call that switches nothing on and leaves the rest as it is. -/
theorem Turned.switched (enabled snapPending : Bool) (henabled : enabled = true → r.enabled = true)
    (hpending : snapPending = true → r.snapPending = true) :
    Turned outage c r { r with enabled, snapPending } := by
  refine .kept _ rfl rfl (Nat.le_refl _) (fun _ => id) ?_
  intro hrecords
  rw [records, Bool.or_eq_true] at hrecords ⊢
  exact hrecords.imp henabled hpending

theorem turned_call (c : Call) (r : Recording) : Turned none c r (r.call c) := by
  have heffect := call_effect c r
  generalize r.call c = r' at heffect
  cases heffect with
  | began hop hoff hfolder => exact .opened c.camera c.now true r.snapPending hfolder
  | snapped hop hoff hidle hfolder => exact .opened c.camera c.now r.enabled true hfolder
  | ended hop => exact .switched false r.snapPending (by rintro ⟨⟩) id
  | failed hnone => exact .kept _ rfl rfl (Nat.le_succ _) (fun _ => id) id
  | taken hop => exact .switched r.enabled false id (by rintro ⟨⟩)
  | withdrawn hop hpending s hs => exact .withdrawn rfl hop hpending s hs
  | withdrawnAlone hop hpending hs => exact .switched r.enabled false id (by rintro ⟨⟩)
  | unchanged => exact .kept _ rfl rfl (Nat.le_refl _) (fun _ => id) id

theorem turned_callDuring (outage : Option Outage) (c : Call) (r : Recording) :
    Turned outage c r (r.callDuring outage c) := by
  cases outage with
  | none => exact turned_call c r
  | some outage =>
    have hout : outage.root.isFolder = false := by cases outage <;> rfl
    have hturned := turned_call c { r with root := outage.root }
    rw [callDuring]
    generalize ({ r with root := outage.root } : Recording).call c = r' at hturned
    cases hturned with
    | opened camera now enabled snapPending hfolder =>
      rw [hout] at hfolder
      cases hfolder
    | withdrawn hreach hop hpending s hs =>
      -- the session is given up, but its folder is out of reach
      refine .kept _ rfl rfl (Nat.le_refl _) (by rintro s ⟨⟩) ?_
      intro hrecords
      exact Bool.or_eq_true_iff.mpr (.inr hpending)
    | kept _ hpath hroot hnext hsession hrecords =>
      exact .kept _ hpath rfl hnext hsession hrecords

theorem Turned.path (h : Turned outage c r r') : r'.path = r.path := by
  cases h with
  | opened => rfl
  | withdrawn => rfl
  | kept _ hpath => exact hpath

theorem Turned.nextId_le (h : Turned outage c r r') : r.nextId ≤ r'.nextId := by
  cases h with
  | opened => exact Nat.le_succ _
  | withdrawn => exact Nat.le_refl _
  | kept _ _ _ hnext => exact hnext

/-- The sessions that have a folder after a call had one before it, or are new. -/
theorem Turned.known (h : Turned outage c r r') {s : Session} (hs : s ∈ r'.root.known) :
    s ∈ r.root.known ∨ s.id = r.nextId := by
  cases h with
  | opened camera now enabled snapPending hfolder =>
    have hknown := Root.known_create hfolder (r.upcoming now) camera
    have hmem : s ∈ (r.root.create (r.upcoming now) camera).known := hs
    rw [hknown, List.mem_append, List.mem_singleton] at hmem
    rcases hmem with hold | rfl
    · exact .inl hold
    · exact .inr rfl
  | withdrawn hreach hop hpending t ht =>
    obtain ⟨folder, hfolder, rfl⟩ := List.mem_map.mp hs
    exact .inl (List.mem_map_of_mem (Root.mem_sessions_remove.mp hfolder).1)
  | kept _ _ hroot =>
    rw [hroot] at hs
    exact .inl hs

/-- A call takes away the folder of a session only by withdrawing it. -/
theorem Turned.known_of_known (h : Turned outage c r r') {s : Session} (hs : s ∈ r.root.known)
    (hstays : r.withdrawnBy outage c ≠ some s) : s ∈ r'.root.known := by
  cases h with
  | opened camera now enabled snapPending hfolder =>
    show s ∈ (r.root.create (r.upcoming now) camera).known
    rw [Root.known_create hfolder]
    exact List.mem_append_left _ hs
  | withdrawn hreach hop hpending t ht =>
    obtain ⟨folder, hfolder, rfl⟩ := List.mem_map.mp hs
    have hne : folder.session ≠ t := by
      rintro rfl
      rw [withdrawnBy, if_pos ⟨hreach, hop, hpending⟩] at hstays
      exact hstays ht
    exact List.mem_map_of_mem (Root.mem_sessions_remove.mpr ⟨hfolder, hne⟩)
  | kept _ _ hroot =>
    rw [hroot]
    exact hs

/-- A session that is withdrawn is the present one, and its folder is gone then. -/
theorem notMem_known_of_withdrawn {s : Session} (h : r.withdrawnBy outage c = some s) :
    r.session = some s ∧ s ∉ (r.callDuring outage c).root.known := by
  by_cases hcancel : outage = none ∧ c.op = .cancelSnap ∧ r.snapPending = true
  · rw [withdrawnBy, if_pos hcancel] at h
    obtain ⟨rfl, hop, hpending⟩ := hcancel
    have hafter : r.callDuring none c =
        { r with snapPending := false, session := none, root := r.root.remove s } := by
      simp [callDuring, call, hop, cancelSnap, hpending, h]
    refine ⟨h, ?_⟩
    rw [hafter]
    intro hmem
    obtain ⟨folder, hfolder, heq⟩ := List.mem_map.mp hmem
    exact (Root.mem_sessions_remove.mp hfolder).2 heq
  · rw [withdrawnBy, if_neg hcancel] at h
    cases h

end Recording

end FrameServer
