import FrameServer.Ring.Basic

/-!
# FrameServer.Proofs.Ring.Cursor — the slots that hold the queue

The queue of a ring lies in consecutive slots from `tail` on, with one wrap at the
end of the slots. This file has the arithmetic of these slots and reads the queue
off a ring:

1. **Places**: the slot `k` places after another one, and how cursors move.
2. **Runs of slots**: the frames in some slots one after the other.
3. **Coherence**: a full ring has its cursors at one slot; then `size` tells how
   far `head` is ahead of `tail`.
4. **The queue**: the frames that wait, and what each operation does to them.
-/

namespace FrameServer.Ring

/-! ## Places -/

section Places

variable {n : Nat} (i : Fin n)

theorem next_val : (next i).val = if i.val + 1 < n then i.val + 1 else 0 := by
  have hi := i.isLt
  simp only [next]
  split
  · exact Nat.mod_eq_of_lt ‹_›
  · -- the first slot comes after the last one
    have hlast : i.val + 1 = n := by omega
    rw [hlast, Nat.mod_self]

theorem previous_next : previous (next i) = i := by
  have hi := i.isLt
  apply Fin.ext
  simp only [previous, next_val]
  split
  · have hturn : i.val + 1 + n - 1 = i.val + n := by omega
    rw [hturn, Nat.add_mod_right, Nat.mod_eq_of_lt hi]
  · -- `next i` is the first slot, so `i` is the last one
    have hlast : 0 + n - 1 = i.val := by omega
    rw [hlast, Nat.mod_eq_of_lt hi]

/-- The slot `k` places after `i`. -/
def place (k : Nat) : Fin n := ⟨(i.val + k) % n, Nat.mod_lt _ i.pos⟩

/-- Up to one turn around the ring there is one wrap at most. -/
theorem place_val {k : Nat} (hk : k ≤ n) :
    (place i k).val = if i.val + k < n then i.val + k else i.val + k - n := by
  have hi := i.isLt
  simp only [place]
  split
  · exact Nat.mod_eq_of_lt ‹_›
  · rw [Nat.mod_eq_sub_mod (by omega)]
    exact Nat.mod_eq_of_lt (by omega)

theorem place_zero : place i 0 = i := by
  apply Fin.ext
  exact Nat.mod_eq_of_lt i.isLt

/-- The places after the next slot are those after this one, one further. -/
theorem place_next {k : Nat} (hk : k < n) : place (next i) k = place i (k + 1) := by
  have hi := i.isLt
  have hn := next_val i
  apply Fin.ext
  rw [place_val _ (by omega), place_val _ (by omega)]
  split at hn
  all_goals
    repeat' split
    all_goals omega

/-- Within one turn different places are different slots. -/
theorem place_ne {j k : Nat} (hjk : j < k) (hk : k < n) : place i j ≠ place i k := by
  intro heq
  have hval := congrArg Fin.val heq
  have hi := i.isLt
  rw [place_val i (by omega), place_val i (by omega)] at hval
  -- the places differ by `k - j` or, with a wrap between them, by `n - (k - j)`
  split at hval <;> split at hval <;> omega

/-! ## Runs of slots -/

variable {α : Type} (slots : Vector Slot n) (view : Slot → α)

/-- What `count` slots from `i` on show, in turn. -/
def span (count : Nat) : List α := (List.range count).map fun k => view slots[place i k]

@[simp] theorem span_length (count : Nat) : (span i slots view count).length = count := by
  simp [span]

theorem span_succ {count : Nat} (hcount : count < n) :
    span i slots view (count + 1) = view slots[i] :: span (next i) slots view count := by
  simp only [span, List.range_succ_eq_map, List.map_cons, List.map_map, place_zero]
  congr 1
  apply List.map_congr_left
  intro k hk
  have hk' := List.mem_range.1 hk
  simp only [Function.comp, place_next i (Nat.lt_trans hk' hcount), Nat.succ_eq_add_one]

theorem span_headD {count : Nat} (hcount : 0 < count) (d : α) :
    (span i slots view count).headD d = view slots[i] := by
  obtain ⟨m, rfl⟩ : ∃ m, count = m + 1 := ⟨count - 1, by omega⟩
  simp only [span, List.range_succ_eq_map, List.map_cons, place_zero, List.headD_cons]

theorem span_replicate (s : Slot) (count : Nat) :
    span i (Vector.replicate n s) view count = List.replicate count (view s) := by
  simp only [span, Fin.getElem_fin, Vector.getElem_replicate, List.map_const',
    List.length_range]

/-- A slot filled behind a run makes the run longer. -/
theorem span_set {count : Nat} (hcount : count < n) {j : Fin n} (hj : place i count = j)
    (s : Slot) :
    span i (slots.set j s) view (count + 1) = span i slots view count ++ [view s] := by
  subst hj
  simp only [span, List.range_succ, List.map_append, List.map_cons, List.map_nil]
  congr 1
  · -- the slots of the run are other ones than the slot behind it
    apply List.map_congr_left
    intro k hk
    have hne : (place i count).val ≠ (place i k).val := fun h =>
      place_ne i (List.mem_range.1 hk) hcount (Fin.ext h.symm)
    simp only [Fin.getElem_fin, Vector.getElem_set_ne _ _ hne]
  · simp only [Fin.getElem_fin, Vector.getElem_set_self]

/-- Seen from the next slot on, filling a slot moves it to the end. -/
theorem span_next_set (s : Slot) :
    span (next i) (slots.set i s) view n = (span i slots view n).tail ++ [view s] := by
  obtain ⟨m, rfl⟩ : ∃ m, n = m + 1 := ⟨n - 1, by have := i.pos; omega⟩
  -- the slot that was filled is the last one of a whole turn from the next slot on
  have hturn : place (next i) m = i := by
    apply Fin.ext
    rw [place_next i (Nat.lt_succ_self m), place_val i (Nat.le_refl _)]
    split <;> omega
  rw [span_set (next i) slots view (Nat.lt_succ_self m) hturn, span_succ i slots view
    (Nat.lt_succ_self m), List.tail_cons]

end Places

/-! ## Coherence -/

variable (r : Ring)

/-- The cursors of a full ring stand at one slot. -/
def Coherent : Prop := r.full = true → r.head = r.tail

theorem size_le : r.size ≤ r.capacity := by
  have hh := r.head.isLt
  unfold size
  split
  · exact Nat.le_refl _
  · split <;> omega

theorem size_of_full (hfull : r.full = true) : r.size = r.capacity := by
  simp [size, hfull]

theorem size_lt (hroom : r.full = false) : r.size < r.capacity := by
  have hh := r.head.isLt
  have ht := r.tail.isLt
  simp only [size, hroom, Bool.false_eq_true, if_false]
  split <;> omega

/-- The next frame goes behind the last one that waits. -/
theorem place_size (hc : r.Coherent) : place r.tail r.size = r.head := by
  have hh := r.head.isLt
  have ht := r.tail.isLt
  apply Fin.ext
  rw [place_val _ r.size_le]
  cases hfull : r.full with
  | true =>
    -- a whole turn from the tail ends at the tail
    have hval : r.head.val = r.tail.val := congrArg Fin.val (hc hfull)
    rw [r.size_of_full hfull]
    split <;> omega
  | false =>
    simp only [size, hfull, Bool.false_eq_true, if_false]
    split <;> split <;> omega

/-- The two ways in which a ring finds out that nothing waits. -/
theorem isEmpty_iff : r.isEmpty = true ↔ r.size = 0 := by
  have hh := r.head.isLt
  have ht := r.tail.isLt
  cases hfull : r.full with
  | true =>
    simp only [isEmpty, size, hfull, Bool.not_true, Bool.false_and, if_true]
    constructor
    · intro h
      cases h
    · -- there is at least one slot, the one at `head`
      omega
  | false =>
    simp only [isEmpty, size, hfull, Bool.not_false, Bool.true_and, beq_iff_eq,
      Bool.false_eq_true, if_false, Fin.ext_iff]
    split <;> omega

theorem isFull_iff : r.isFull = true ↔ r.size = r.capacity := by
  constructor
  · exact r.size_of_full
  · intro hsize
    cases hfull : r.full with
    | true => exact hfull
    | false => exact absurd hsize (Nat.ne_of_lt (r.size_lt hfull))

/-! ## The queue -/

/-- The frames that wait, the oldest first. -/
def waiting : List Frame := span r.tail r.slots (Slot.read r.slotLength) r.size

@[simp] theorem waiting_length : r.waiting.length = r.size := span_length _ _ _ _

/-- The bytes in the slots, in the order in which the slots are filled next. -/
def leftovers : List Bytes := span r.head r.slots Slot.stored r.capacity

theorem leftovers_headD : r.leftovers.headD [] = (r.slots.get r.head).stored :=
  span_headD r.head r.slots _ r.head.pos []

section Put

variable (header : Header) (data : Bytes)

/-- The slot at `head` once a frame has been put in. -/
def filled : Slot := (r.slots.get r.head).write r.slotLength header data

/-- The frame that is then in it. -/
def deposit : Frame := (r.filled header data).read r.slotLength

theorem put_coherent : (r.put header data).Coherent := by
  intro hfull
  simpa [put] using hfull

theorem put_peekLatest? : (r.put header data).peekLatest? = some (r.deposit header data) := by
  have hslot : previous (next r.head) = r.head := previous_next r.head
  show some ((r.slots.set r.head.val _ r.head.isLt)[(previous (next r.head)).val].read _) = _
  simp only [hslot, Vector.getElem_set_self]
  rfl

/-- Beside others a frame takes one more slot. -/
theorem put_size_of_room (hroom : r.full = false) :
    (r.put header data).size = r.size + 1 := by
  have hh := r.head.isLt
  have ht := r.tail.isLt
  have hn := next_val r.head
  simp only [put, size, hroom, Bool.false_eq_true, if_false, beq_iff_eq, Fin.ext_iff]
  -- `hn` says whether the head wraps; in each case the ring may have become full
  split at hn
  all_goals
    repeat' split
    all_goals omega

/-- A full ring stays full. -/
theorem put_size_of_full (hc : r.Coherent) (hfull : r.full = true) :
    (r.put header data).size = r.capacity := by
  apply size_of_full
  simp [put, hfull, hc hfull]

theorem put_waiting_of_room (hc : r.Coherent) (hroom : r.full = false) :
    (r.put header data).waiting = r.waiting ++ [r.deposit header data] := by
  have htail : (r.put header data).tail = r.tail := by simp [put, hroom]
  unfold waiting
  rw [put_size_of_room r header data hroom, htail]
  exact span_set r.tail r.slots _ (r.size_lt hroom) (r.place_size hc) _

/-- The frame takes the place of the oldest one. -/
theorem put_waiting_of_full (hc : r.Coherent) (hfull : r.full = true) :
    (r.put header data).waiting = r.waiting.tail ++ [r.deposit header data] := by
  have htail : (r.put header data).tail = next r.head := by simp [put, hfull, hc hfull]
  unfold waiting
  rw [put_size_of_full r header data hc hfull, htail, r.size_of_full hfull, ← hc hfull]
  exact span_next_set r.head r.slots _ _

theorem put_leftovers :
    (r.put header data).leftovers = r.leftovers.tail ++ [(r.filled header data).stored] :=
  span_next_set r.head r.slots _ _

end Put

/-! ## Taking out and forgetting -/

theorem get?_of_isEmpty (hnone : r.isEmpty = true) : r.get? = (none, r) := by
  simp [get?, hnone]

/-- The ring once its oldest frame was taken out. -/
def rest : Ring := { r with tail := next r.tail, full := false, read := r.read + 1 }

theorem get?_of_some (hsome : r.isEmpty = false) :
    r.get? = (some (r.frameAt r.tail), r.rest) := by
  simp [get?, hsome, rest]

theorem rest_coherent : r.rest.Coherent := by
  intro hfull
  cases hfull

theorem rest_size (hc : r.Coherent) (hsome : r.isEmpty = false) : r.rest.size + 1 = r.size := by
  have hh := r.head.isLt
  have ht := r.tail.isLt
  have hn := next_val r.tail
  have hpos : r.size ≠ 0 := fun h => by
    rw [r.isEmpty_iff.2 h] at hsome
    cases hsome
  have hrest : r.rest.size =
      if (next r.tail).val ≤ r.head.val then r.head.val - (next r.tail).val
      else r.capacity + r.head.val - (next r.tail).val := rfl
  rw [hrest]
  cases hfull : r.full with
  | true =>
    have hval : r.head.val = r.tail.val := congrArg Fin.val (hc hfull)
    rw [r.size_of_full hfull]
    split at hn <;> split <;> omega
  | false =>
    -- here `hpos` keeps the cursors apart
    simp only [size, hfull, Bool.false_eq_true, if_false] at hpos ⊢
    split at hn <;> split at hpos <;> repeat' split
    all_goals omega

/-- The oldest frame stands at the tail. -/
theorem waiting_of_some (hc : r.Coherent) (hsome : r.isEmpty = false) :
    r.waiting = r.frameAt r.tail :: r.rest.waiting := by
  have hsize := r.rest_size hc hsome
  have hle := r.size_le
  unfold waiting
  rw [← hsize]
  exact span_succ r.tail r.slots _ (by omega)

theorem waiting_of_size {r : Ring} (hsize : r.size = 0) : r.waiting = [] := by
  rw [← List.length_eq_zero_iff, waiting_length, hsize]

theorem waiting_eq_nil_iff : r.waiting = [] ↔ r.isEmpty = true := by
  rw [← List.length_eq_zero_iff, waiting_length, isEmpty_iff]

/-- The frame that is taken out is the first of those that wait. -/
theorem waiting_of_get? {r r' : Ring} (hc : r.Coherent) {frame : Frame}
    (hget : r.get? = (some frame, r')) : r'.Coherent ∧ r.waiting = frame :: r'.waiting := by
  cases hempty : r.isEmpty with
  | true =>
    rw [get?_of_isEmpty _ hempty] at hget
    cases hget
  | false =>
    rw [get?_of_some _ hempty] at hget
    cases hget
    exact ⟨rest_coherent _, waiting_of_some _ hc hempty⟩

theorem isEmpty_of_get? {r r' : Ring} (hget : r.get? = (none, r')) : r.isEmpty = true := by
  cases hempty : r.isEmpty with
  | true => rfl
  | false =>
    rw [get?_of_some _ hempty] at hget
    cases hget

@[simp] theorem reset_waiting : r.reset.waiting = [] :=
  waiting_of_size (by simp [reset, size])

@[simp] theorem hardReset_waiting : r.hardReset.waiting = [] :=
  waiting_of_size (by simp [hardReset, size])

theorem hardReset_leftovers : r.hardReset.leftovers = List.replicate r.capacity [] :=
  span_replicate r.head Slot.stored .blank _

end FrameServer.Ring
