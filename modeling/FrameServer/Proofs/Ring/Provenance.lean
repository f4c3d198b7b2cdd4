import FrameServer.Proofs.Ring.Newest

/-!
# FrameServer.Proofs.Ring.Provenance — where the bytes of a frame come from

The places of a ring are used in turn and keep what was put into them, so a frame that
came with too few pixels goes on with those of an earlier one. The puts of a ring are
numbered from its creation on. Those that go into one place are as many numbers apart as
there are places, and clearing the places begins a new era.

1. **Puts**, the byte that each of them leaves in its place, and the frame of a put.
2. **Tallies**: which puts wait in a ring and which one it shows.
3. **What a place holds**, followed through one put.
4. **Simulation**: a queue has the frames of the puts in a tally.
5. **Clearing**: a cleared ring answers as a new one does.
6. **Provenance** of every byte that a ring returns.
-/

namespace FrameServer

namespace Ring

/-! ## Puts -/

/-- A shot that was put in, and how many times the places had been cleared before. -/
structure Put where
  shot : Shot
  era : Nat
deriving DecidableEq, Repr

namespace Put

/-- How many bytes of a put are stored in a place of `length` bytes. -/
def stored (length : Nat) (p : Put) : Nat := min p.shot.data.length length

section Puts

variable (bound length : Nat) (puts : List Put)

/-- Byte `i` of the data of put `k`. -/
def byteOf (k i : Nat) : UInt8 := (puts[k]?.bind (·.shot.data[i]?)).getD 0

/-- In an era, put `k` left a byte `i` in the place of put `j`. -/
def leaves (era j i k : Nat) : Bool :=
  k % bound == j % bound && puts[k]?.any fun p => p.era == era && decide (i < p.stored length)

/-- The byte `i` in the place of put `j` after the first `n` puts: the most recent one
that left such a byte decides. -/
def byteLeft (era j i : Nat) : Nat → UInt8
  | 0 => 0
  | n + 1 => if leaves bound length puts era j i n then byteOf puts n i else byteLeft era j i n

/-- The byte `i` in the place of put `j` once it was made. -/
def byteAfter (p : Put) (j i : Nat) : UInt8 :=
  if i < p.stored length then byteOf puts j i else byteLeft bound length puts p.era j i j

/-- The frame of put `j`. -/
def frame? (j : Nat) : Option Frame :=
  puts[j]?.map fun p =>
    let size := min p.shot.header.payloadSize.toNat length
    { header := { p.shot.header with
        imageSize := .ofNat (p.stored length), payloadSize := .ofNat size }
      payload := (List.range size).map (byteAfter bound length puts p j) }

/-- Put `k` is the most recent one before put `j` that went into its place since that
was cleared and that stored more than `i` bytes. -/
structure Source (p : Put) (j i k : Nat) : Prop where
  before : k < j
  leaves : leaves bound length puts p.era j i k = true
  latest : ∀ m, k < m → m < j → Put.leaves bound length puts p.era j i m = false

/-- The frame has the header of put `j`, and each of its bytes comes from that put or from
the put that is its source. -/
structure Traced (j : Nat) (p : Put) (f : Frame) : Prop where
  header_eq : f.header = { p.shot.header with
    imageSize := .ofNat (p.stored length)
    payloadSize := .ofNat (min p.shot.header.payloadSize.toNat length) }
  length_eq : f.payload.length = min p.shot.header.payloadSize.toNat length
  own : ∀ i < f.payload.length, i < p.stored length → f.payload[i]? = p.shot.data[i]?
  inherited : ∀ i < f.payload.length, p.stored length ≤ i →
    ∀ k q, puts[k]? = some q → Source bound length puts p j i k →
      f.payload[i]? = q.shot.data[i]?
  blank : ∀ i < f.payload.length, p.stored length ≤ i →
    (∀ k, ¬ Source bound length puts p j i k) → f.payload[i]? = some 0

end Puts

end Put

/-! ## Tallies -/

/-- Which puts the frames of a ring come from. -/
structure Tally where
  /-- Every put so far. -/
  puts : List Put
  /-- How many times the places were cleared. -/
  era : Nat
  /-- The numbers of the puts whose frames wait, the oldest first. -/
  waiting : List Nat
  /-- The number of the last put since everything was forgotten. -/
  latest : Option Nat
deriving Repr

namespace Tally

variable (bound : Nat)

def empty : Tally := ⟨[], 0, [], none⟩

/-- The next put waits behind the others; with `bound` of them the oldest goes. -/
def put (shot : Shot) (t : Tally) : Tally :=
  let number := t.puts.length
  let others := if t.waiting.length = bound then t.waiting.tail else t.waiting
  { t with
    puts := t.puts ++ [⟨shot, t.era⟩]
    waiting := others ++ [number]
    latest := some number }

def putAll (shots : List Shot) (t : Tally) : Tally :=
  shots.foldl (fun t shot => t.put bound shot) t

def get (t : Tally) : Option Nat × Tally :=
  match t.waiting with
  | [] => (none, t)
  | j :: waiting => (some j, { t with waiting })

def reset (t : Tally) : Tally := { t with waiting := [], latest := none }

/-- Everything is forgotten and the places are cleared. -/
def hardReset (t : Tally) : Tally := { t.reset with era := t.era + 1 }

/-- The number of the put whose frame an operation returns, if any. -/
def perform (t : Tally) : Op → Option Nat × Tally
  | .put shot => (none, t.put bound shot)
  | .get => t.get
  | .getBlocking arriving =>
    let ready := !t.waiting.isEmpty
    let (number, t) := (t.putAll bound (Queue.early ready arriving)).get
    (number, t.putAll bound (Queue.late ready arriving))
  | .peekLatest => (t.latest, t)
  | .peekBlocking arriving =>
    let ready := t.latest.isSome
    let t := t.putAll bound (Queue.early ready arriving)
    (t.latest, t.putAll bound (Queue.late ready arriving))
  | .reset => (none, t.reset)
  | .hardReset => (none, t.hardReset)

def run (t : Tally) : List Op → List (Option Nat) × Tally
  | [] => ([], t)
  | op :: later =>
    let (number, t) := t.perform bound op
    let (numbers, t) := run t later
    (number :: numbers, t)

end Tally

/-! ## What a place holds -/

namespace Put

variable {bound length : Nat} {puts : List Put} {era j i : Nat}

theorem leaves_iff {k : Nat} {q : Put} (hq : puts[k]? = some q) :
    leaves bound length puts era j i k = true ↔
      k % bound = j % bound ∧ q.era = era ∧ i < q.stored length := by
  simp [leaves, hq]

theorem leaves_append {k : Nat} (hk : k < puts.length) (more : List Put) :
    leaves bound length (puts ++ more) era j i k = leaves bound length puts era j i k := by
  simp only [leaves, List.getElem?_append_left hk]

/-- Later puts do not change what the first ones left. -/
theorem byteLeft_append {n : Nat} (hn : n ≤ puts.length) (more : List Put) :
    byteLeft bound length (puts ++ more) era j i n = byteLeft bound length puts era j i n := by
  induction n with
  | zero => rfl
  | succ n ih =>
    have hlt : n < puts.length := hn
    simp only [byteLeft, leaves_append hlt, byteOf, List.getElem?_append_left hlt,
      ih (Nat.le_of_lt hlt)]

theorem leaves_congr {j' : Nat} (hplace : j % bound = j' % bound) (k : Nat) :
    leaves bound length puts era j i k = leaves bound length puts era j' i k := by
  simp only [leaves, hplace]

/-- Puts into the same place find the same bytes there. -/
theorem byteLeft_congr {j' : Nat} (hplace : j % bound = j' % bound) (n : Nat) :
    byteLeft bound length puts era j i n = byteLeft bound length puts era j' i n := by
  induction n with
  | zero => rfl
  | succ n ih => simp only [byteLeft, leaves_congr hplace, ih]

/-- No put of another era leaves anything. -/
theorem byteLeft_of_era (hera : ∀ p ∈ puts, p.era ≠ era) (n : Nat) :
    byteLeft bound length puts era j i n = 0 := by
  induction n with
  | zero => rfl
  | succ n ih =>
    have hnot : leaves bound length puts era j i n = false := by
      cases hput : puts[n]? with
      | none => simp [leaves, hput]
      | some p => simp [leaves, hput, hera p (List.mem_of_getElem? hput)]
    simp only [byteLeft, hnot, Bool.false_eq_true, if_false, ih]

/-- A put decides the bytes that it stores in its place, and no others. -/
theorem byteLeft_put (p : Put) {j i : Nat} :
    byteLeft bound length (puts ++ [p]) p.era j i (puts.length + 1) =
      if puts.length % bound = j % bound ∧ i < p.stored length then
        (p.shot.data[i]?).getD 0
      else byteLeft bound length puts p.era j i puts.length := by
  simp only [byteLeft, byteLeft_append (Nat.le_refl _), leaves, byteOf,
    List.getElem?_append_right (Nat.le_refl _), Nat.sub_self, List.getElem?_cons_zero,
    Option.any_some, Option.bind_some, beq_self_eq_true, Bool.true_and, Bool.and_eq_true,
    beq_iff_eq, decide_eq_true_eq]

/-- The byte that is found is that of the source. -/
theorem byteLeft_of_source {p : Put} {k : Nat} (hsource : Source bound length puts p j i k) :
    byteLeft bound length puts p.era j i j = byteOf puts k i := by
  -- the puts after the source leave nothing, up to any one before `j`
  have hdown : ∀ n, k < n → n ≤ j →
      byteLeft bound length puts p.era j i n = byteOf puts k i := by
    intro n
    induction n with
    | zero =>
      intro hk
      omega
    | succ n ih =>
      intro hk hn
      rcases Nat.lt_or_eq_of_le (Nat.le_of_lt_succ hk) with hlater | hsame
      · simp only [byteLeft, hsource.latest n hlater hn, Bool.false_eq_true, if_false,
          ih hlater (Nat.le_of_lt hn)]
      · simp only [byteLeft, ← hsame, hsource.leaves, if_true]
  exact hdown j hsource.before (Nat.le_refl j)

/-- Without a source there is a zero. -/
theorem byteLeft_of_no_source {p : Put} (hnone : ∀ k, ¬ Source bound length puts p j i k) :
    byteLeft bound length puts p.era j i j = 0 := by
  -- going back from `j`, the first put that left something would be a source
  have hdown : ∀ n ≤ j, (∀ m, n ≤ m → m < j → leaves bound length puts p.era j i m = false) →
      byteLeft bound length puts p.era j i n = 0 := by
    intro n
    induction n with
    | zero =>
      intro _ _
      rfl
    | succ n ih =>
      intro hn hquiet
      have hhere : leaves bound length puts p.era j i n = false := by
        rw [← Bool.not_eq_true]
        intro hleaves
        exact hnone n ⟨hn, hleaves, hquiet⟩
      simp only [byteLeft, hhere, Bool.false_eq_true, if_false]
      apply ih (Nat.le_of_lt hn)
      intro m hm hmj
      rcases Nat.eq_or_lt_of_le hm with hsame | hlater
      · rw [← hsame]
        exact hhere
      · exact hquiet m hlater hmj
  apply hdown j (Nat.le_refl j)
  intro m hm hmj
  omega

/-- Later puts do not change the frames of earlier ones. -/
theorem frame?_append (hj : j < puts.length) (more : List Put) :
    frame? bound length (puts ++ more) j = frame? bound length puts j := by
  have hbytes : ∀ p, byteAfter bound length (puts ++ more) p j =
      byteAfter bound length puts p j := by
    intro p
    funext i
    simp only [byteAfter, byteOf, List.getElem?_append_left hj,
      byteLeft_append (Nat.le_of_lt hj)]
  simp only [frame?, List.getElem?_append_left hj, hbytes]

/-- The frame of a put is traced. -/
theorem traced_of_frame? {p : Put} {f : Frame} (hput : puts[j]? = some p)
    (hf : frame? bound length puts j = some f) : Traced bound length puts j p f := by
  simp only [frame?, hput, Option.map_some, Option.some.injEq] at hf
  subst hf
  have hbyte : ∀ i < min p.shot.header.payloadSize.toNat length,
      ((List.range (min p.shot.header.payloadSize.toNat length)).map
        (byteAfter bound length puts p j))[i]? = some (byteAfter bound length puts p j i) := by
    intro i hi
    simp [hi]
  refine ⟨rfl, by simp, ?_, ?_, ?_⟩
  · intro i hi hown
    simp only [List.length_map, List.length_range] at hi
    have hdata : i < p.shot.data.length := by
      simp only [stored] at hown
      omega
    simp [hbyte i hi, byteAfter, hown, byteOf, hput, hdata]
  · intro i hi hless k q hq hsource
    simp only [List.length_map, List.length_range] at hi
    have hstored : i < q.stored length := ((leaves_iff hq).mp hsource.leaves).2.2
    have hdata : i < q.shot.data.length := by
      simp only [stored] at hstored
      omega
    simp [hbyte i hi, byteAfter, Nat.not_lt.mpr hless, byteLeft_of_source hsource, byteOf, hq,
      hdata]
  · intro i hi hless hnone
    simp only [List.length_map, List.length_range] at hi
    simp [hbyte i hi, byteAfter, Nat.not_lt.mpr hless, byteLeft_of_no_source hnone]

theorem exists_traced (hj : j < puts.length) : ∃ p f, puts[j]? = some p ∧
    frame? bound length puts j = some f ∧ Traced bound length puts j p f := by
  have hput : puts[j]? = some puts[j] := List.getElem?_eq_getElem hj
  have hframe : ∃ f, frame? bound length puts j = some f := by
    simp [frame?, hput]
  rcases hframe with ⟨f, hf⟩
  exact ⟨puts[j], f, hput, hf, traced_of_frame? hput hf⟩

end Put

end Ring

/-- Byte `i` of a place after a shot was put into it. -/
theorem Shot.storedOver_byte (length : Nat) (old : Bytes) (shot : Shot) (i : Nat) :
    ((shot.storedOver length old)[i]?).getD 0 =
      if i < min shot.data.length length then (shot.data[i]?).getD 0 else (old[i]?).getD 0 := by
  rw [storedOver, List.getElem?_append, List.length_take]
  split
  · rw [List.getElem?_take_of_lt (by omega), if_pos (by omega)]
  · rw [List.getElem?_drop, if_neg (by omega)]
    congr 3
    omega

/-- A row that is filled up with zeros, read byte by byte. -/
theorem take_append_zeros (row : Bytes) (size : Nat) :
    (row ++ List.replicate size 0).take size =
      (List.range size).map fun i => (row[i]?).getD 0 := by
  apply List.ext_getElem
  · simp
  · intro i hleft hright
    have hi : i < size := by simpa using hright
    rw [List.getElem_take, List.getElem_map, List.getElem_range]
    rcases Nat.lt_or_ge i row.length with hlt | hge
    · simp [List.getElem_append_left hlt, hlt]
    · simp [List.getElem_append_right hge, List.getElem?_eq_none hge]

namespace Queue

open FrameServer.Ring (Put Tally)

/-! ## Simulation -/

/-- The frames of a queue are those of the puts in a tally, and its places hold what
these left. -/
structure Tallied (bound length : Nat) (q : Queue) (t : Tally) : Prop where
  frames : q.frames.map some = t.waiting.map (Put.frame? bound length t.puts)
  latest : q.latest = t.latest.bind (Put.frame? bound length t.puts)
  made : ∀ j, j ∈ t.waiting ∨ t.latest = some j → j < t.puts.length
  era_le : ∀ p ∈ t.puts, p.era ≤ t.era
  places : q.left.length = bound
  left : ∀ k < bound, ∀ i, ((q.left[k]?.getD [])[i]?).getD 0 =
    Put.byteLeft bound length t.puts t.era (t.puts.length + k) i t.puts.length

namespace Tallied

variable {bound length : Nat} {q : Queue} {t : Tally}

theorem length_eq (h : q.Tallied bound length t) : q.frames.length = t.waiting.length := by
  simpa using congrArg List.length h.frames

theorem isEmpty_eq (h : q.Tallied bound length t) : q.frames.isEmpty = t.waiting.isEmpty := by
  rw [Bool.eq_iff_iff, List.isEmpty_iff, List.isEmpty_iff, ← List.length_eq_zero_iff,
    ← List.length_eq_zero_iff, h.length_eq]

theorem isSome_eq (h : q.Tallied bound length t) : q.latest.isSome = t.latest.isSome := by
  rw [h.latest]
  cases hlatest : t.latest with
  | none => rfl
  | some j =>
    have hlt := h.made j (.inr hlatest)
    simp [Put.frame?, hlt]

theorem empty (bound length : Nat) : (Queue.empty bound).Tallied bound length .empty := by
  refine ⟨rfl, rfl, ?_, ?_, ?_, ?_⟩
  · intro j hj
    simp [Tally.empty] at hj
  · intro p hp
    simp [Tally.empty] at hp
  · simp [Queue.empty]
  · intro k hk i
    simp [Queue.empty, Tally.empty, Put.byteLeft, hk]

/-- The next put finds what its place holds. -/
theorem keptOver_eq (h : q.Tallied bound length t) (hbound : 0 < bound) (shot : Shot) :
    Put.frame? bound length (t.puts ++ [⟨shot, t.era⟩]) t.puts.length =
      some (shot.keptOver length (q.left.headD [])) := by
  have hold : ∀ i, (((q.left.headD [])[i]?).getD 0) =
      Put.byteLeft bound length t.puts t.era t.puts.length i t.puts.length := by
    intro i
    have hfirst := h.left 0 hbound i
    simpa [List.headD_eq_head?_getD, List.head?_eq_getElem?] using hfirst
  have hbytes : Put.byteAfter bound length (t.puts ++ [⟨shot, t.era⟩]) ⟨shot, t.era⟩
      t.puts.length = fun i => ((shot.storedOver length (q.left.headD []))[i]?).getD 0 := by
    funext i
    rw [shot.storedOver_byte, hold]
    simp [Put.byteAfter, Put.stored, Put.byteOf, Put.byteLeft_append (Nat.le_refl _)]
  simp [Put.frame?, Shot.keptOver, take_append_zeros, hbytes, Put.stored]

/-- After a put the place that it used is the last one to be used again. -/
theorem left_put (h : q.Tallied bound length t) (shot : Shot) :
    ∀ k < bound, ∀ i,
      (((q.left.tail ++ [shot.storedOver length (q.left.headD [])])[k]?.getD [])[i]?).getD 0 =
        Put.byteLeft bound length (t.puts ++ [⟨shot, t.era⟩]) t.era (t.puts.length + 1 + k) i
          (t.puts.length + 1) := by
  intro k hk i
  have htail : q.left.tail.length = bound - 1 := by
    rw [List.length_tail, h.places]
  have hput : Put.byteLeft bound length (t.puts ++ [⟨shot, t.era⟩]) t.era
      (t.puts.length + 1 + k) i (t.puts.length + 1) = _ := Put.byteLeft_put ⟨shot, t.era⟩
  rw [hput]
  rcases Nat.lt_or_ge (k + 1) bound with hother | hlast
  · -- another place, which the put left alone
    have hplace : t.puts.length % bound ≠ (t.puts.length + 1 + k) % bound := by
      intro hsame
      have hzero := Nat.sub_mod_eq_zero_of_mod_eq hsame.symm
      have hgap : t.puts.length + 1 + k - t.puts.length = k + 1 := by omega
      rw [hgap, Nat.mod_eq_of_lt hother] at hzero
      omega
    have hleft := h.left (k + 1) hother i
    have hnumber : t.puts.length + (k + 1) = t.puts.length + 1 + k := by omega
    rw [hnumber] at hleft
    rw [if_neg (fun hboth => hplace hboth.1), ← hleft,
      List.getElem?_append_left (by omega), List.getElem?_tail]
  · -- the place of the put, one turn later
    have hplace : t.puts.length % bound = (t.puts.length + 1 + k) % bound := by
      have hturn : t.puts.length + 1 + k = t.puts.length + bound := by omega
      rw [hturn, Nat.add_mod_right]
    have hfirst := h.left 0 (by omega) i
    have hk' : k = q.left.tail.length := by omega
    rw [hk', List.getElem?_append_right (Nat.le_refl _), Nat.sub_self, List.getElem?_cons_zero,
      Option.getD_some, shot.storedOver_byte, ← hk', ← Put.byteLeft_congr hplace]
    simp only [hplace, true_and, Put.stored, List.headD_eq_head?_getD, List.head?_eq_getElem?,
      hfirst, Nat.add_zero]

theorem put (h : q.Tallied bound length t) (hbound : 0 < bound) (shot : Shot) :
    (q.put bound length shot).Tallied bound length (t.put bound shot) := by
  have hkept := h.keptOver_eq hbound shot
  -- the frames that wait are those of earlier puts
  have hold : t.waiting.map (Put.frame? bound length (t.puts ++ [⟨shot, t.era⟩])) =
      q.frames.map some := by
    rw [h.frames]
    apply List.map_congr_left
    intro j hj
    exact Put.frame?_append (h.made j (.inl hj)) _
  have hleft : (q.put bound length shot).left =
      q.left.tail ++ [shot.storedOver length (q.left.headD [])] := by
    unfold Queue.put
    dsimp only
    split <;> rfl
  refine ⟨?_, ?_, ?_, ?_, ?_, ?_⟩
  · unfold Queue.put Tally.put
    rw [h.length_eq]
    dsimp only
    split <;> simp [hkept, hold, List.map_tail]
  · rw [put_latest]
    exact hkept.symm
  · intro j hj
    simp only [Tally.put, List.length_append, List.length_singleton, List.mem_append,
      List.mem_singleton, Option.some.injEq] at hj ⊢
    rcases hj with (hwaits | hnew) | hlatest
    · have hmem : j ∈ t.waiting := by
        split at hwaits
        · exact List.mem_of_mem_tail hwaits
        · exact hwaits
      have hlt := h.made j (.inl hmem)
      omega
    · omega
    · omega
  · intro p hp
    rcases List.mem_append.mp hp with hold | hnew
    · exact h.era_le p hold
    · rw [List.mem_singleton.mp hnew]
      exact Nat.le_refl _
  · have hpos := h.places
    rw [hleft, List.length_append, List.length_tail, List.length_singleton]
    omega
  · rw [hleft]
    have hleft' := h.left_put shot
    simpa [Tally.put] using hleft'

theorem putAll (h : q.Tallied bound length t) (hbound : 0 < bound) (shots : List Shot) :
    (q.putAll bound length shots).Tallied bound length (t.putAll bound shots) := by
  induction shots generalizing q t with
  | nil => exact h
  | cons shot later ih => exact ih (h.put hbound shot)

theorem get (h : q.Tallied bound length t) :
    q.get.1 = t.get.1.bind (Put.frame? bound length t.puts) ∧
      q.get.2.Tallied bound length t.get.2 := by
  have hframes := h.frames
  cases hwaiting : t.waiting with
  | nil =>
    have hnil : q.frames = [] := by simpa [hwaiting] using hframes
    simp only [Queue.get, hnil, Tally.get, hwaiting]
    exact ⟨rfl, h⟩
  | cons j waiting =>
    cases hqueue : q.frames with
    | nil => simp [hwaiting, hqueue] at hframes
    | cons f frames =>
      simp only [hwaiting, hqueue, List.map_cons, List.cons.injEq] at hframes
      simp only [Queue.get, hqueue, Tally.get, hwaiting]
      refine ⟨hframes.1, hframes.2, h.latest, ?_, h.era_le, h.places, h.left⟩
      intro k hk
      apply h.made
      rw [hwaiting]
      rcases hk with hmem | hlatest
      · left
        exact List.mem_cons_of_mem j hmem
      · right
        exact hlatest

theorem reset (h : q.Tallied bound length t) : q.reset.Tallied bound length t.reset := by
  refine ⟨rfl, rfl, ?_, h.era_le, h.places, h.left⟩
  intro j hj
  simp [Tally.reset] at hj

/-- A new era begins with nothing in the places. -/
theorem hardReset (h : q.Tallied bound length t) :
    ({ q.reset with left := List.replicate bound [] } : Queue).Tallied bound length
      t.hardReset := by
  have hreset := h.reset
  refine ⟨hreset.frames, hreset.latest, hreset.made, ?_, by simp, ?_⟩
  · intro p hp
    exact Nat.le_succ_of_le (h.era_le p hp)
  · intro k hk i
    have hera : ∀ p ∈ t.puts, p.era ≠ t.era + 1 := by
      intro p hp
      have hle := h.era_le p hp
      omega
    simp [hk, Tally.hardReset, Tally.reset, Put.byteLeft_of_era hera]

end Tallied

end Queue

namespace Ring.Tally

variable {bound : Nat} {t : Tally}

theorem era_putAll (shots : List Shot) (t : Tally) : (t.putAll bound shots).era = t.era := by
  induction shots generalizing t with
  | nil => rfl
  | cons shot later ih => exact ih (t.put bound shot)

theorem puts_putAll (shots : List Shot) (t : Tally) :
    (t.putAll bound shots).puts = t.puts ++ shots.map fun shot => ⟨shot, t.era⟩ := by
  induction shots generalizing t with
  | nil => simp [putAll]
  | cons shot later ih =>
    have hlater := ih (t.put bound shot)
    simpa [putAll, put] using hlater

theorem era_get (t : Tally) : t.get.2.era = t.era := by
  unfold get
  split <;> rfl

theorem puts_get (t : Tally) : t.get.2.puts = t.puts := by
  unfold get
  split <;> rfl

theorem early_append_late (ready : Bool) (arriving : List Shot) :
    Queue.early ready arriving ++ Queue.late ready arriving = arriving := by
  cases ready with
  | true => simp [Queue.early, Queue.late]
  | false => cases arriving <;> simp [Queue.early, Queue.late]

/-- Every shot of an operation is one more put of the present era. -/
theorem puts_perform (t : Tally) (op : Op) :
    (t.perform bound op).2.puts = t.puts ++ op.shots.map fun shot => ⟨shot, t.era⟩ := by
  cases op with
  | put shot => rfl
  | get => simp [perform, Op.shots, puts_get]
  | getBlocking arriving =>
    simp only [perform, Op.shots, puts_putAll, puts_get, era_get, era_putAll, List.append_assoc,
      ← List.map_append, early_append_late]
  | peekLatest => simp [perform, Op.shots]
  | peekBlocking arriving =>
    simp only [perform, Op.shots, puts_putAll, era_putAll, List.append_assoc,
      ← List.map_append, early_append_late]
  | reset => simp [perform, Op.shots, reset]
  | hardReset => simp [perform, Op.shots, hardReset, reset]

/-- The puts of a run are the shots of its operations, in order. -/
theorem shots_run (t : Tally) (ops : List Op) :
    (t.run bound ops).2.puts.map (·.shot) = t.puts.map (·.shot) ++ ops.flatMap Op.shots := by
  induction ops generalizing t with
  | nil => simp [run]
  | cons op later ih =>
    have hlater := ih (t.perform bound op).2
    rw [puts_perform] at hlater
    simpa [run, Function.comp_def] using hlater

theorem puts_run (t : Tally) (ops : List Op) :
    ∃ more, (t.run bound ops).2.puts = t.puts ++ more := by
  induction ops generalizing t with
  | nil => exact ⟨[], by simp [run]⟩
  | cons op later ih =>
    rcases ih (t.perform bound op).2 with ⟨more, hmore⟩
    rw [puts_perform, List.append_assoc] at hmore
    exact ⟨_, hmore⟩

/-- The put that is taken out waited before. -/
theorem mem_of_get {j : Nat} (hj : t.get.1 = some j) : j ∈ t.waiting := by
  unfold get at hj
  split at hj
  · cases hj
  · next first waiting hwaiting =>
    rw [hwaiting, ← Option.some.inj hj]
    exact List.mem_cons_self

end Ring.Tally

/-- Later puts do not change the frame that an answer names. -/
theorem Ring.Put.bind_frame?_append {bound length : Nat} {puts : List Put} {number : Option Nat}
    (hmade : ∀ j, number = some j → j < puts.length) (more : List Put) :
    number.bind (frame? bound length (puts ++ more)) =
      number.bind (frame? bound length puts) := by
  cases number with
  | none => rfl
  | some j => exact frame?_append (hmade j rfl) more

/-- What was answered before some shots came stays the same. -/
theorem Ring.Tally.answer_putAll {bound length : Nat} {t : Tally} {number : Option Nat}
    (hmade : ∀ j, number = some j → j < t.puts.length) (shots : List Shot) :
    number.bind (Put.frame? bound length (t.putAll bound shots).puts) =
        number.bind (Put.frame? bound length t.puts) ∧
      ∀ j, number = some j → j < (t.putAll bound shots).puts.length := by
  rw [puts_putAll]
  refine ⟨Put.bind_frame?_append hmade _, ?_⟩
  intro j hj
  have hlt := hmade j hj
  rw [List.length_append]
  omega

namespace Queue

open FrameServer.Ring (Put Tally)

variable {bound length : Nat} {q : Queue} {t : Tally}

/-- Each operation returns the frame of the put that the tally names. -/
theorem Tallied.perform (h : q.Tallied bound length t) (hbound : 0 < bound) (op : Ring.Op) :
    (q.perform bound length op).1 =
        (t.perform bound op).1.bind (Put.frame? bound length (t.perform bound op).2.puts) ∧
      (∀ j, (t.perform bound op).1 = some j → j < (t.perform bound op).2.puts.length) ∧
      (q.perform bound length op).2.Tallied bound length (t.perform bound op).2 := by
  cases op with
  | put shot => exact ⟨rfl, by simp [Tally.perform], h.put hbound shot⟩
  | get =>
    rcases h.get with ⟨hanswer, hrest⟩
    refine ⟨?_, ?_, hrest⟩
    · simpa [Queue.perform, Tally.perform, Tally.puts_get] using hanswer
    · intro j hj
      have hlt := h.made j (.inl (Tally.mem_of_get hj))
      simpa [Tally.perform, Tally.puts_get] using hlt
  | getBlocking arriving =>
    have hearly := h.putAll hbound (early (!t.waiting.isEmpty) arriving)
    rcases hearly.get with ⟨hanswer, hrest⟩
    have hlate := hrest.putAll hbound (late (!t.waiting.isEmpty) arriving)
    have hmade : ∀ j, (t.putAll bound (early (!t.waiting.isEmpty) arriving)).get.1 = some j →
        j < (t.putAll bound (early (!t.waiting.isEmpty) arriving)).get.2.puts.length := by
      intro j hj
      rw [Tally.puts_get]
      exact hearly.made j (.inl (Tally.mem_of_get hj))
    simp only [Queue.perform, Tally.perform, h.isEmpty_eq]
    rcases Tally.answer_putAll hmade (late (!t.waiting.isEmpty) arriving) with ⟨hsame, hlt⟩
    refine ⟨?_, hlt, hlate⟩
    rw [hsame, Tally.puts_get]
    exact hanswer
  | peekLatest => exact ⟨h.latest, fun j hj => h.made j (.inr hj), h⟩
  | peekBlocking arriving =>
    have hearly := h.putAll hbound (early t.latest.isSome arriving)
    have hlate := hearly.putAll hbound (late t.latest.isSome arriving)
    have hmade : ∀ j, (t.putAll bound (early t.latest.isSome arriving)).latest = some j →
        j < (t.putAll bound (early t.latest.isSome arriving)).puts.length := by
      intro j hj
      exact hearly.made j (.inr hj)
    simp only [Queue.perform, Tally.perform, h.isSome_eq]
    rcases Tally.answer_putAll hmade (late t.latest.isSome arriving) with ⟨hsame, hlt⟩
    refine ⟨?_, hlt, hlate⟩
    rw [hsame]
    exact hearly.latest
  | reset => exact ⟨rfl, by simp [Tally.perform], h.reset⟩
  | hardReset => exact ⟨rfl, by simp [Tally.perform], h.hardReset⟩

theorem Tallied.run (h : q.Tallied bound length t) (hbound : 0 < bound) (ops : List Ring.Op) :
    (q.run bound length ops).1 =
        (t.run bound ops).1.map (·.bind (Put.frame? bound length (t.run bound ops).2.puts)) ∧
      ∀ j, some j ∈ (t.run bound ops).1 → j < (t.run bound ops).2.puts.length := by
  induction ops generalizing q t with
  | nil => exact ⟨rfl, by simp [Tally.run]⟩
  | cons op later ih =>
    rcases h.perform hbound op with ⟨hanswer, hmade, hnext⟩
    rcases ih hnext with ⟨hanswers, hlater⟩
    have hgrows : ∃ more, ((t.perform bound op).2.run bound later).2.puts =
        (t.perform bound op).2.puts ++ more := Tally.puts_run _ later
    rcases hgrows with ⟨more, hmore⟩
    constructor
    · simp only [Queue.run, Tally.run, List.map_cons, List.cons.injEq]
      constructor
      · rw [hmore, Put.bind_frame?_append hmade]
        exact hanswer
      · exact hanswers
    · intro j hj
      simp only [Tally.run, List.mem_cons] at hj ⊢
      rcases hj with hfirst | hrest
      · have hlt := hmade j hfirst.symm
        rw [hmore, List.length_append]
        omega
      · exact hlater j hrest

/-! ## Clearing -/

/-- The queues show the same frames and have the same places. -/
structure Alike (q q' : Queue) : Prop where
  frames : q.frames = q'.frames
  latest : q.latest = q'.latest
  left : q.left = q'.left

namespace Alike

variable (bound length) {q' : Queue}

theorem put (h : q.Alike q') (shot : Shot) :
    (q.put bound length shot).Alike (q'.put bound length shot) := by
  unfold Queue.put
  rw [h.frames, h.left]
  dsimp only
  split <;> exact ⟨rfl, rfl, rfl⟩

theorem putAll (h : q.Alike q') (shots : List Shot) :
    (q.putAll bound length shots).Alike (q'.putAll bound length shots) := by
  induction shots generalizing q q' with
  | nil => exact h
  | cons shot later ih => exact ih (h.put bound length shot)

theorem get (h : q.Alike q') : q.get.1 = q'.get.1 ∧ q.get.2.Alike q'.get.2 := by
  unfold Queue.get
  rw [h.frames]
  split
  · exact ⟨rfl, h⟩
  · exact ⟨rfl, rfl, h.latest, h.left⟩

theorem perform (h : q.Alike q') (op : Ring.Op) :
    (q.perform bound length op).1 = (q'.perform bound length op).1 ∧
      (q.perform bound length op).2.Alike (q'.perform bound length op).2 := by
  cases op with
  | put shot => exact ⟨rfl, h.put bound length shot⟩
  | get => exact h.get
  | getBlocking arriving =>
    simp only [Queue.perform, h.frames]
    rcases (h.putAll bound length (early (!q'.frames.isEmpty) arriving)).get with ⟨hanswer, hrest⟩
    exact ⟨hanswer, hrest.putAll bound length _⟩
  | peekLatest => exact ⟨h.latest, h⟩
  | peekBlocking arriving =>
    simp only [Queue.perform, h.latest]
    have hearly := h.putAll bound length (early q'.latest.isSome arriving)
    exact ⟨hearly.latest, hearly.putAll bound length _⟩
  | reset => exact ⟨rfl, rfl, rfl, h.left⟩
  | hardReset => exact ⟨rfl, rfl, rfl, rfl⟩

theorem run (h : q.Alike q') (ops : List Ring.Op) :
    (q.run bound length ops).1 = (q'.run bound length ops).1 := by
  induction ops generalizing q q' with
  | nil => rfl
  | cons op later ih =>
    rcases h.perform bound length op with ⟨hanswer, hnext⟩
    simp only [Queue.run, hanswer, ih hnext]

end Alike

theorem run_append (q : Queue) (before after : List Ring.Op) :
    (q.run bound length (before ++ after)).1 =
      (q.run bound length before).1 ++
        ((q.run bound length before).2.run bound length after).1 := by
  induction before generalizing q with
  | nil => rfl
  | cons op later ih => simp only [List.cons_append, Queue.run, ih]

/-- What a queue answers after its places were cleared, it answers when it is new. -/
theorem run_hardReset (q : Queue) (before after : List Ring.Op) :
    (q.run bound length (before ++ .hardReset :: after)).1 =
      (q.run bound length before).1 ++ none :: ((Queue.empty bound).run bound length after).1 := by
  have halike : ((q.run bound length before).2.perform bound length .hardReset).2.Alike
      (.empty bound) := ⟨rfl, rfl, rfl⟩
  simp only [run_append, Queue.run, halike.run]
  rfl

end Queue

/-! ## Provenance -/

namespace Ring

/-- Every frame that a ring returns is that of the put which the tally names: its bytes
are those that came with the put, then those of the most recent earlier put into the same
place since that was cleared, then zeros. So a ring answers after its places were cleared
as a new one does; forgetting the frames alone does not do this. -/
theorem payload_provenance (requested : Nat) (width height : UInt32) (ops : List Op) :
    let bound := max requested 1
    let length := width.toNat * height.toNat
    let new := Ring.empty requested width height
    let (numbers, tally) := Tally.empty.run bound ops
    (∀ limit r, create requested width height limit = .ok r → r = new) ∧
      tally.puts.map (·.shot) = ops.flatMap Op.shots ∧
      (new.run ops).1 = numbers.map (·.bind (Put.frame? bound length tally.puts)) ∧
      (∀ j, some j ∈ numbers → ∃ p f, tally.puts[j]? = some p ∧
        Put.frame? bound length tally.puts j = some f ∧ Put.Traced bound length tally.puts j p f) ∧
      (∀ before after, (new.run (before ++ .hardReset :: after)).1 =
        (new.run before).1 ++ none :: (new.run after).1) ∧
      ∃ first second f, first.data ≠ [] ∧ second.data = [] ∧ f.payload = first.data ∧
        ((Ring.empty 1 1 1).run [.put first, .reset, .put second, .get]).1 =
          [none, none, none, some f] := by
  have hring := Represents.empty requested width height
  have htally := Queue.Tallied.empty (max requested 1) (width.toNat * height.toNat)
  have hbound : 0 < max requested 1 := by omega
  rcases htally.run hbound ops with ⟨hanswers, hmade⟩
  refine ⟨fun _ r => create_eq_empty, ?_, ?_, ?_, ?_, ?_⟩
  · simpa [Tally.empty] using Tally.shots_run Tally.empty ops
  · rw [(hring.run ops).1]
    exact hanswers
  · intro j hj
    exact Put.exists_traced (hmade j hj)
  · intro before after
    rw [(hring.run _).1, (hring.run before).1, (hring.run after).1, Queue.run_hardReset]
  · refine ⟨⟨.full 1 1 1 0, [7]⟩, ⟨.full 1 1 2 0, []⟩,
      ⟨{ Header.full 1 1 2 0 with imageSize := 0 }, [7]⟩, ?_, rfl, rfl, ?_⟩
    · simp
    · decide

end Ring

end FrameServer
