import FrameServer.Proofs.Frame.Stream
import FrameServer.Proofs.Ring.Queue

/-!
# FrameServer.Proofs.Ring.Newest — the newest frame since the last reset

Beside its queue a ring shows one frame. It is what the ring kept of the shot that was
put in last, unless everything was forgotten since.

1. **Newest shots**: what each operation puts in, and which shot is the newest then.
2. **Kept frames** have the number of their shot, and as many bytes as they say.
3. **Rings** show the newest shot.
-/

namespace FrameServer

/-! ## Newest shots -/

namespace Ring.Op

/-- The shots that an operation puts in, in order. -/
def shots : Op → List Shot
  | put shot => [shot]
  | getBlocking arriving => arriving
  | peekBlocking arriving => arriving
  | _ => []

/-- The newest shot since everything was forgotten, after an operation. -/
def newest (before : Option Shot) : Op → Option Shot
  | reset => none
  | hardReset => none
  | op => op.shots.getLast?.or before

/-- A shot that is the newest was put in by the operation, or it was the newest
before. -/
theorem newest_eq {before : Option Shot} {op : Op} {shot : Shot}
    (hnewest : op.newest before = some shot) :
    op.shots.getLast? = some shot ∨ op.shots = [] ∧ before = some shot := by
  have hor : ∀ shots : List Shot, shots.getLast?.or before = some shot →
      shots.getLast? = some shot ∨ shots = [] ∧ before = some shot := by
    intro shots h
    cases hlast : shots.getLast? with
    | none =>
      rw [hlast, Option.none_or] at h
      exact .inr ⟨List.getLast?_eq_none_iff.mp hlast, h⟩
    | some last =>
      rw [hlast, Option.some_or] at h
      exact .inl h
  cases op with
  | reset => cases hnewest
  | hardReset => cases hnewest
  | put shot => exact hor _ hnewest
  | get => exact hor _ hnewest
  | getBlocking arriving => exact hor _ hnewest
  | peekLatest => exact hor _ hnewest
  | peekBlocking arriving => exact hor _ hnewest

end Ring.Op

/-! ## Kept frames -/

namespace Shot

theorem keptOver_wellSized {length : Nat} (hlength : length < UInt64.size) (old : Bytes)
    (shot : Shot) : (shot.keptOver length old).WellSized := by
  have hsize := toNat_ofNat_min hlength shot.header.payloadSize.toNat
  have hpayload : (shot.keptOver length old).payload.length =
      min shot.header.payloadSize.toNat length := by
    simp only [keptOver, List.length_take, List.length_append, List.length_replicate]
    omega
  exact hsize.trans hpayload.symm

/-- The frame is what places of `length` bytes keep of the shot. -/
inductive KeptAs (length : Nat) : Option Shot → Option Frame → Prop where
  | none : KeptAs length none none
  | some (shot : Shot) (old : Bytes) :
      KeptAs length (some shot) (some (shot.keptOver length old))

theorem KeptAs.isSome_eq {length : Nat} {shot? : Option Shot} {frame? : Option Frame}
    (h : KeptAs length shot? frame?) : frame?.isSome = shot?.isSome := by
  cases h <;> rfl

end Shot

/-! ## Rings -/

namespace Queue

open Shot (KeptAs)

variable {bound length : Nat} {q : Queue} {newest : Option Shot}

theorem put_latest (shot : Shot) :
    (q.put bound length shot).latest = some (shot.keptOver length (q.left.headD [])) := by
  unfold put
  dsimp only
  split <;> rfl

theorem get_latest : q.get.2.latest = q.latest := by
  unfold get
  split <;> rfl

/-- The last one of some shots is the newest. -/
theorem putAll_latest (bound : Nat) (h : KeptAs length newest q.latest) (shots : List Shot) :
    KeptAs length (shots.getLast?.or newest) (q.putAll bound length shots).latest := by
  induction shots generalizing q newest with
  | nil => exact h
  | cons shot later ih =>
    have hput : KeptAs length (some shot) (q.put bound length shot).latest := by
      rw [put_latest]
      exact .some shot _
    have hlater := ih hput
    rw [List.getLast?_cons, ← Option.or_some, Option.or_assoc, Option.some_or]
    exact hlater

/-- Which shots arrive early and which late makes no difference to the newest one. -/
theorem getLast?_early_late (ready : Bool) (arriving : List Shot) :
    (late ready arriving).getLast?.or ((early ready arriving).getLast?.or newest) =
      arriving.getLast?.or newest := by
  cases ready with
  | true => rfl
  | false =>
    cases arriving with
    | nil => rfl
    | cons shot later =>
      simp only [late, early, Bool.false_eq_true, if_false, List.drop_succ_cons, List.drop_zero,
        List.take_succ_cons, List.take_zero, Option.some_or, List.getLast?_cons]
      cases later.getLast? <;> rfl

/-- Every operation leaves the newest shot to be seen. -/
theorem perform_latest (h : KeptAs length newest q.latest) (op : Ring.Op) :
    KeptAs length (op.newest newest) (q.perform bound length op).2.latest := by
  cases op with
  | put shot => exact putAll_latest bound h [shot]
  | get =>
    show KeptAs length newest q.get.2.latest
    rw [get_latest]
    exact h
  | getBlocking arriving =>
    have hearly := putAll_latest bound h (early (!q.frames.isEmpty) arriving)
    rw [← get_latest] at hearly
    have hlate := putAll_latest bound hearly (late (!q.frames.isEmpty) arriving)
    rw [getLast?_early_late] at hlate
    exact hlate
  | peekLatest => exact h
  | peekBlocking arriving =>
    have hearly := putAll_latest bound h (early q.latest.isSome arriving)
    have hlate := putAll_latest bound hearly (late q.latest.isSome arriving)
    rw [getLast?_early_late] at hlate
    exact hlate
  | reset => exact .none
  | hardReset => exact .none

/-- Waiting for a frame gives the newest one, or the first that arrives if there is
none. -/
theorem peekBlocking_answer (h : KeptAs length newest q.latest) (arriving : List Shot) :
    KeptAs length (newest.or arriving.head?)
      (q.perform bound length (.peekBlocking arriving)).1 := by
  have hearly := putAll_latest bound h (early q.latest.isSome arriving)
  have hready : q.latest.isSome = newest.isSome := h.isSome_eq
  have hfirst : (early q.latest.isSome arriving).getLast?.or newest =
      newest.or arriving.head? := by
    rw [hready]
    cases newest with
    | some shot => rfl
    | none => cases arriving <;> rfl
  rw [hfirst] at hearly
  exact hearly

end Queue

end FrameServer
