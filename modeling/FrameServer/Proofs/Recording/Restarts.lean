import Mathlib.Data.List.Induction
import FrameServer.Recording.Numbering

/-!
# FrameServer.Proofs.Recording.Restarts — which frame the numbers are counted from

Frames are numbered from the latest one with which numbering started over. It starts
over with the first frame of all, with the first one after frames that were not
recorded, with a frame of another session than the frame before, and with a frame from
before the one that is counted from. So no frame is counted from a later one, and a
number fits a word unless the last frame that a word can number is counted from frame 0.

1. **Calls** of a numbering.
2. **Starting over**, and the frame that is counted from.
3. **What every call keeps**: the baseline is that frame, until a boundary comes, and
   the session is that of the frame before.
4. **Numbers and ticks**, and the words that they are computed in.
-/

namespace FrameServer.Numbering

/-! ## Calls -/

/-- What a numbering is told. -/
inductive Call where
  /-- A frame was not recorded. -/
  | boundary
  /-- A frame of a session is numbered. -/
  | assign (h : Header) (session : Nat)
deriving DecidableEq, Repr

/-- The frame that a call numbers, with its session. -/
def Call.numbered? : Call → Option (Header × Nat)
  | boundary => none
  | assign h session => some (h, session)

/-- The frames that were numbered, in order, with their sessions. -/
def numbered (calls : List Call) : List (Header × Nat) := calls.filterMap Call.numbered?

@[simp] theorem numbered_boundary (calls : List Call) :
    numbered (calls ++ [.boundary]) = numbered calls := by
  simp [numbered, Call.numbered?]

@[simp] theorem numbered_assign (calls : List Call) (h : Header) (session : Nat) :
    numbered (calls ++ [.assign h session]) = numbered calls ++ [(h, session)] := by
  simp [numbered, Call.numbered?]

/-! ## Starting over -/

/-- What is kept of a frame that others are counted from. -/
def place (h : Header) : Nat × Nat := (h.frameId.toNat, h.timestamp.toNat)

/-- Numbering starts over with a frame of a session: nothing is there to count from, or
it counts in another session, or from a later frame. -/
def StartsOver (n : Numbering) (h : Header) (session : Nat) : Prop :=
  match n.baseline with
  | none => True
  | some (first, _) => n.session ≠ some session ∨ h.frameId.toNat < first

instance (n : Numbering) (h : Header) (session : Nat) : Decidable (n.StartsOver h session) := by
  unfold StartsOver
  split <;> infer_instance

section Starting

variable {n : Numbering} {h : Header} {session first begun : Nat}

theorem startsOver_of_none (hbase : n.baseline = none) : n.StartsOver h session := by
  rw [StartsOver, hbase]
  trivial

theorem startsOver_of_some (hbase : n.baseline = some (first, begun)) :
    n.StartsOver h session ↔ n.session ≠ some session ∨ h.frameId.toNat < first := by
  rw [StartsOver, hbase]

theorem baselineFor_of_startsOver (hover : n.StartsOver h session) :
    n.baselineFor h session = place h := by
  cases hbase : n.baseline with
  | none => rw [baselineFor, hbase, place]
  | some base =>
    obtain ⟨first, begun⟩ := base
    rw [startsOver_of_some hbase] at hover
    rw [baselineFor, hbase]
    refine if_neg ?_
    rintro ⟨hsession, hle⟩
    rcases hover with hother | hlt
    · exact hother hsession
    · exact Nat.not_le.mpr hlt hle

/-- If it does not start over, numbering goes on in the session and from the baseline
where it stands, and the frame is no earlier than that. -/
theorem kept_of_not_startsOver (hover : ¬ n.StartsOver h session) :
    n.session = some session ∧ n.baseline = some (n.baselineFor h session) ∧
      (n.baselineFor h session).1 ≤ h.frameId.toNat := by
  cases hbase : n.baseline with
  | none => exact absurd (startsOver_of_none hbase) hover
  | some base =>
    obtain ⟨first, begun⟩ := base
    rw [startsOver_of_some hbase, not_or, not_not, Nat.not_lt] at hover
    have hfor : n.baselineFor h session = (first, begun) := by
      rw [baselineFor, hbase]
      exact if_pos hover
    rw [hfor]
    exact ⟨hover.1, rfl, hover.2⟩

/-- What is remembered changes only when numbering starts over. -/
theorem assign_snd (n : Numbering) (h : Header) (session : Nat) :
    (n.assign h session).2 =
      if n.StartsOver h session then ⟨some (place h), some session⟩ else n := by
  have hassign : (n.assign h session).2 = ⟨some (n.baselineFor h session), some session⟩ := rfl
  rw [hassign]
  by_cases hover : n.StartsOver h session
  · rw [if_pos hover, baselineFor_of_startsOver hover]
  · obtain ⟨hsession, hbase, -⟩ := kept_of_not_startsOver hover
    rw [if_neg hover, ← hbase, ← hsession]

end Starting

/-- A numbering, and the frame of the latest call at which it started over. -/
structure Counted where
  numbering : Numbering
  begun : Option Header
deriving DecidableEq, Repr

namespace Counted

/-- Nothing was numbered yet. -/
def new : Counted := ⟨.new, none⟩

def step (c : Counted) : Call → Counted
  | .boundary => { c with numbering := c.numbering.boundary }
  | .assign h session =>
    ⟨(c.numbering.assign h session).2,
      if c.numbering.StartsOver h session then some h else c.begun⟩

def run (c : Counted) (calls : List Call) : Counted := calls.foldl step c

theorem run_snoc (c : Counted) (calls : List Call) (call : Call) :
    c.run (calls ++ [call]) = (c.run calls).step call := List.foldl_append

/-! ## What every call keeps -/

/-- What the calls so far tell about a numbering. -/
structure Kept (calls : List Call) (c : Counted) : Prop where
  session : c.numbering.session = (numbered calls).getLast?.map Prod.snd
  baseline : c.numbering.baseline =
    if calls.getLast? = some .boundary then none else c.begun.map place
  begun : c.begun = none ↔ numbered calls = []

variable {calls : List Call} {c : Counted} {h : Header} {session : Nat}

theorem Kept.new : Kept [] new := by
  constructor
  · rfl
  · rfl
  · exact iff_of_true rfl rfl

namespace Kept

theorem boundary (hkept : Kept calls c) : Kept (calls ++ [.boundary]) (c.step .boundary) := by
  constructor
  · rw [numbered_boundary]
    exact hkept.session
  · rw [List.getLast?_concat, if_pos rfl]
    rfl
  · rw [numbered_boundary]
    exact hkept.begun

/-- Counting goes on from a frame only if it is the one that numbering started over with
at last. -/
theorem exists_begun (hkept : Kept calls c) {base : Nat × Nat}
    (hbase : c.numbering.baseline = some base) :
    calls.getLast? ≠ some .boundary ∧ ∃ b, c.begun = some b ∧ place b = base := by
  rw [hkept.baseline] at hbase
  split at hbase
  · cases hbase
  · next hlast =>
    obtain ⟨b, hb, hplace⟩ := Option.map_eq_some_iff.mp hbase
    exact ⟨hlast, b, hb, hplace⟩

/-- The frame that is counted from after a frame was numbered. -/
theorem exists_begun_step (hkept : Kept calls c) (h : Header) (session : Nat) :
    ∃ b, (c.step (.assign h session)).begun = some b ∧
      c.numbering.baselineFor h session = place b ∧ b.frameId ≤ h.frameId := by
  by_cases hover : c.numbering.StartsOver h session
  · exact ⟨h, if_pos hover, baselineFor_of_startsOver hover, UInt64.le_refl _⟩
  · obtain ⟨-, hbase, hle⟩ := kept_of_not_startsOver hover
    obtain ⟨-, b, hb, hplace⟩ := hkept.exists_begun hbase
    refine ⟨b, (if_neg hover).trans hb, hplace.symm, ?_⟩
    rw [← hplace] at hle
    exact UInt64.le_iff_toNat_le.mpr hle

theorem assign (hkept : Kept calls c) (h : Header) (session : Nat) :
    Kept (calls ++ [.assign h session]) (c.step (.assign h session)) := by
  obtain ⟨b, hb, hplace, -⟩ := hkept.exists_begun_step h session
  constructor
  · rw [numbered_assign, List.getLast?_concat]
    rfl
  · have hlast : some (Call.assign h session) ≠ some .boundary := by simp
    rw [List.getLast?_concat, if_neg hlast, hb, Option.map_some, ← hplace]
    rfl
  · rw [numbered_assign, hb]
    simp

theorem step (hkept : Kept calls c) (call : Call) : Kept (calls ++ [call]) (c.step call) := by
  cases call with
  | boundary => exact hkept.boundary
  | assign h session => exact hkept.assign h session

/-- In the words of the calls so far. -/
theorem startsOver_iff (hkept : Kept calls c) :
    c.numbering.StartsOver h session ↔
      numbered calls = [] ∨ calls.getLast? = some .boundary ∨
        (∃ last, (numbered calls).getLast? = some last ∧ last.2 ≠ session) ∨
        ∃ b, c.begun = some b ∧ h.frameId < b.frameId := by
  have hbaseline := hkept.baseline
  by_cases hlast : calls.getLast? = some .boundary
  · -- a boundary leaves nothing to count from
    rw [if_pos hlast] at hbaseline
    exact iff_of_true (startsOver_of_none hbaseline) (.inr (.inl hlast))
  · rw [if_neg hlast] at hbaseline
    cases hb : c.begun with
    | none =>
      have hnone := hkept.begun.mp hb
      rw [hb, Option.map_none] at hbaseline
      exact iff_of_true (startsOver_of_none hbaseline) (.inl hnone)
    | some b =>
      rw [hb, Option.map_some] at hbaseline
      have hsome : numbered calls ≠ [] := by
        intro hnil
        rw [hkept.begun.mpr hnil] at hb
        cases hb
      obtain ⟨last, hprevious⟩ := Option.ne_none_iff_exists'.mp
        (fun hnone => hsome (List.getLast?_eq_none_iff.mp hnone))
      have hsession := hkept.session
      rw [hprevious, Option.map_some] at hsession
      rw [startsOver_of_some hbaseline, hsession, hprevious, ← UInt64.lt_iff_toNat_lt]
      simp [hsome, hlast]

end Kept

theorem kept_run (calls : List Call) : Kept calls (new.run calls) := by
  induction calls using List.reverseRecOn with
  | nil => exact .new
  | append_singleton earlier call ih =>
    rw [run_snoc]
    exact ih.step call

end Counted

/-! ## Numbers and ticks -/

/-- Counting from one word to another that is no smaller fits a word, except from the
least one to the greatest. -/
theorem size_le_count_iff {first last : UInt64} (hle : first ≤ last) :
    UInt64.size ≤ last.toNat - first.toNat + 1 ↔
      last.toNat = UInt64.size - 1 ∧ first = 0 := by
  have hlast := last.toNat_lt
  rw [UInt64.le_iff_toNat_le] at hle
  rw [← UInt64.toNat_inj, UInt64.toNat_zero]
  unfold UInt64.size
  omega

/-- If it fits one, words count as numbers do. -/
theorem toNat_count {first last : UInt64} (hle : first ≤ last)
    (hfits : last.toNat - first.toNat + 1 < UInt64.size) :
    (last - first + 1).toNat = last.toNat - first.toNat + 1 := by
  rw [UInt64.toNat_add, UInt64.toNat_sub_of_le _ _ hle]
  exact Nat.mod_eq_of_lt hfits

/-- Numbering starts over exactly with the first frame of all, with the first one after a
boundary, with a frame of another session than the frame before, and with a frame from
before the one that is counted from; only then it changes what it remembers. Whatever was
numbered before, a frame is numbered from the latest frame with which numbering started
over, which is no later one; so the difference of their numbers needs no borrow, and one
more than it needs no carry unless the last frame of all is counted from frame 0. The
ticks are those between the two frames, or none. -/
theorem counted_from_latest_start (calls : List Call) (h : Header) (session : Nat) :
    let c := Counted.new.run calls
    (c.numbering.StartsOver h session ↔
      numbered calls = [] ∨ calls.getLast? = some .boundary ∨
        (∃ last, (numbered calls).getLast? = some last ∧ last.2 ≠ session) ∨
        ∃ b, c.begun = some b ∧ h.frameId < b.frameId) ∧
      ((c.numbering.assign h session).2 =
        if c.numbering.StartsOver h session then ⟨some (place h), some session⟩
        else c.numbering) ∧
      ∃ b, (c.step (.assign h session)).begun = some b ∧ b.frameId ≤ h.frameId ∧
        let (number, ticks) := (c.numbering.assign h session).1
        number = h.frameId.toNat - b.frameId.toNat + 1 ∧ 1 ≤ number ∧
          (UInt64.size ≤ number ↔ h.frameId.toNat = UInt64.size - 1 ∧ b.frameId = 0) ∧
          (number < UInt64.size → (h.frameId - b.frameId + 1).toNat = number) ∧
          (ticks : Int) = max (h.timestamp.toNat - b.timestamp.toNat : Int) 0 := by
  intro c
  have hkept := Counted.kept_run calls
  obtain ⟨b, hb, hplace, hle⟩ := hkept.exists_begun_step h session
  refine ⟨hkept.startsOver_iff, assign_snd _ _ _, b, hb, hle, ?_⟩
  have hassigned : (c.numbering.assign h session).1 =
      (h.frameId.toNat - b.frameId.toNat + 1, h.timestamp.toNat - b.timestamp.toNat) := by
    rw [Numbering.assign, hplace, place]
  rw [hassigned]
  refine ⟨rfl, Nat.le_add_left 1 _, size_le_count_iff hle, toNat_count hle, ?_⟩
  omega

end FrameServer.Numbering
