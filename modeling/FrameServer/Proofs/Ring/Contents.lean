import FrameServer.Proofs.Ring.Newest

/-!
# FrameServer.Proofs.Ring.Contents — what is true of every frame of a ring

A frame comes into a ring in one way: a shot is put in, and its place keeps what fits
of it. So what is true of every frame that a place can keep of the shots is true of
every frame that waits in the ring, of the one that it shows as its latest, and of
those that are taken out.

1. **Queues**: one lemma for each operation, then runs.
2. **Rings** by the queues that they represent.
3. **Sizes**: a frame of a ring has as many bytes as its header says.
-/

namespace FrameServer

/-! ## Queues -/

namespace Queue

/-- A shot that arrives early is one of those that arrive. -/
theorem mem_of_mem_early {ready : Bool} {arriving : List Shot} {shot : Shot}
    (hshot : shot ∈ early ready arriving) : shot ∈ arriving := by
  cases ready with
  | true => cases hshot
  | false => exact List.mem_of_mem_take hshot

theorem mem_of_mem_late {ready : Bool} {arriving : List Shot} {shot : Shot}
    (hshot : shot ∈ late ready arriving) : shot ∈ arriving := by
  cases ready with
  | true => exact hshot
  | false => exact List.mem_of_mem_drop hshot

/-- A frame that waits after a shot was put in is what was kept of the shot, or it
waited before. -/
theorem mem_frames_put {bound length : Nat} {q : Queue} {shot : Shot} {f : Frame}
    (hf : f ∈ (q.put bound length shot).frames) :
    f ∈ q.frames ∨ f = shot.keptOver length (q.left.headD []) := by
  unfold put at hf
  dsimp only at hf
  split at hf
  · -- the oldest frame gave its place
    rcases List.mem_append.mp hf with hold | hnew
    · left
      exact List.mem_of_mem_tail hold
    · right
      exact List.mem_singleton.mp hnew
  · rcases List.mem_append.mp hf with hold | hnew
    · left
      exact hold
    · right
      exact List.mem_singleton.mp hnew

/-- Every frame that waits or is shown has the property. -/
structure Each (P : Frame → Prop) (q : Queue) : Prop where
  frames : ∀ f ∈ q.frames, P f
  latest : ∀ f, q.latest = some f → P f

namespace Each

variable {P : Frame → Prop} {bound length : Nat} {q : Queue}

theorem empty (P : Frame → Prop) (bound : Nat) : (Queue.empty bound).Each P := by
  constructor
  · intro f hf
    cases hf
  · intro f hf
    cases hf

theorem put (h : q.Each P) (bound : Nat) {shot : Shot}
    (hshot : ∀ old, P (shot.keptOver length old)) :
    (q.put bound length shot).Each P := by
  -- what the place held before that is written next
  have hnew := hshot (q.left.headD [])
  constructor
  · intro f hf
    rcases mem_frames_put hf with hold | hsame
    · exact h.frames f hold
    · rw [hsame]
      exact hnew
  · intro f hf
    rw [put_latest, Option.some.injEq] at hf
    rw [← hf]
    exact hnew

theorem putAll (h : q.Each P) (bound : Nat) {shots : List Shot}
    (hshots : ∀ shot ∈ shots, ∀ old, P (shot.keptOver length old)) :
    (q.putAll bound length shots).Each P := by
  induction shots generalizing q with
  | nil => exact h
  | cons shot later ih =>
    have hnow := h.put bound (hshots shot List.mem_cons_self)
    apply ih hnow
    intro other hother
    exact hshots other (List.mem_cons_of_mem shot hother)

theorem get (h : q.Each P) : (∀ f, q.get.1 = some f → P f) ∧ q.get.2.Each P := by
  unfold Queue.get
  split
  · constructor
    · intro f hf
      cases hf
    · exact h
  · next oldest rest hframes =>
    have hall := h.frames
    rw [hframes] at hall
    constructor
    · intro f hf
      rw [← Option.some.inj hf]
      exact hall oldest List.mem_cons_self
    · constructor
      · intro f hf
        exact hall f (List.mem_cons_of_mem oldest hf)
      · exact h.latest

theorem reset (P : Frame → Prop) (q : Queue) : q.reset.Each P := by
  constructor
  · intro f hf
    cases hf
  · intro f hf
    cases hf

/-- Every operation returns a frame with the property, if any. -/
theorem perform (h : q.Each P) (bound : Nat) {op : Ring.Op}
    (hshots : ∀ shot ∈ op.shots, ∀ old, P (shot.keptOver length old)) :
    (∀ f, (q.perform bound length op).1 = some f → P f) ∧
      (q.perform bound length op).2.Each P := by
  cases op with
  | put shot =>
    constructor
    · intro f hf
      cases hf
    · exact h.put bound (hshots shot List.mem_cons_self)
  | get => exact h.get
  | getBlocking arriving =>
    -- the answer is given after the early shots and before the late ones
    have hearly : ∀ shot ∈ early (!q.frames.isEmpty) arriving, ∀ old,
        P (shot.keptOver length old) := by
      intro shot hshot
      exact hshots shot (mem_of_mem_early hshot)
    have hput := h.putAll bound hearly
    rcases hput.get with ⟨hanswer, hrest⟩
    exact ⟨hanswer, hrest.putAll bound fun shot hshot => hshots shot (mem_of_mem_late hshot)⟩
  | peekLatest => exact ⟨h.latest, h⟩
  | peekBlocking arriving =>
    have hearly : ∀ shot ∈ early q.latest.isSome arriving, ∀ old,
        P (shot.keptOver length old) := by
      intro shot hshot
      exact hshots shot (mem_of_mem_early hshot)
    have hput := h.putAll bound hearly
    exact ⟨hput.latest, hput.putAll bound fun shot hshot => hshots shot (mem_of_mem_late hshot)⟩
  | reset =>
    constructor
    · intro f hf
      cases hf
    · exact .reset P q
  | hardReset =>
    constructor
    · intro f hf
      cases hf
    · have hreset := Each.reset P q
      exact ⟨hreset.frames, hreset.latest⟩

theorem run (h : q.Each P) (bound : Nat) {ops : List Ring.Op}
    (hshots : ∀ op ∈ ops, ∀ shot ∈ op.shots, ∀ old, P (shot.keptOver length old)) :
    (∀ f, some f ∈ (q.run bound length ops).1 → P f) ∧
      (q.run bound length ops).2.Each P := by
  induction ops generalizing q with
  | nil =>
    constructor
    · intro f hf
      cases hf
    · exact h
  | cons op later ih =>
    rcases h.perform bound (hshots op List.mem_cons_self) with ⟨hanswer, hnext⟩
    have hlater := ih hnext fun other hother => hshots other (List.mem_cons_of_mem op hother)
    constructor
    · intro f hf
      rcases List.mem_cons.mp hf with hfirst | hrest
      · exact hanswer f hfirst.symm
      · exact hlater.1 f hrest
    · exact hlater.2

end Each

end Queue

/-! ## Rings -/

namespace Ring

/-- The ring is coherent, and every frame that waits in it or that it shows has the
property. -/
def Holds (P : Frame → Prop) (bound length : Nat) (r : Ring) : Prop :=
  ∃ q, r.Represents bound length q ∧ q.Each P

namespace Holds

variable {P : Frame → Prop} {bound length : Nat} {r : Ring}

theorem empty (P : Frame → Prop) (requested : Nat) (width height : UInt32) :
    (Ring.empty requested width height).Holds P (max requested 1)
      (width.toNat * height.toNat) :=
  ⟨_, .empty requested width height, .empty P _⟩

theorem waiting (h : r.Holds P bound length) : ∀ f ∈ r.waiting, P f := by
  rcases h with ⟨q, hring, hall⟩
  rw [hring.waiting]
  exact hall.frames

theorem latest (h : r.Holds P bound length) : ∀ f, r.peekLatest? = some f → P f := by
  rcases h with ⟨q, hring, hall⟩
  rw [hring.latest]
  exact hall.latest

theorem put (h : r.Holds P bound length) {shot : Shot}
    (hshot : ∀ old, P (shot.keptOver length old)) :
    (r.put shot.header shot.data).Holds P bound length := by
  rcases h with ⟨q, hring, hall⟩
  exact ⟨_, hring.put shot, hall.put _ hshot⟩

/-- The oldest frame has the property, and so have those that still wait. -/
theorem get (h : r.Holds P bound length) :
    (∀ f, r.get?.1 = some f → P f) ∧ r.get?.2.Holds P bound length := by
  rcases h with ⟨q, hring, hall⟩
  rcases hring.get with ⟨hanswer, hrest⟩
  constructor
  · rw [hanswer]
    exact hall.get.1
  · exact ⟨_, hrest, hall.get.2⟩

end Holds

/-! ## Sizes -/

/-- The payload of every frame that a ring returns is as long as its header says. -/
theorem wellSized_of_mem_run {requested : Nat} {width height : UInt32} {ops : List Op} {f : Frame}
    (hf : some f ∈ ((Ring.empty requested width height).run ops).1) : f.WellSized := by
  have hring := Represents.empty requested width height
  have hall := Queue.Each.empty Frame.WellSized (max requested 1)
  have hlength := (Ring.empty requested width height).slotLength_lt
  rw [hring.slotLength] at hlength
  rw [(hring.run ops).1] at hf
  apply (hall.run _ _).1 f hf
  intro op hop shot hshot old
  exact shot.keptOver_wellSized hlength old

end Ring

end FrameServer
