import Mathlib.Order.Bounds.Basic
import FrameServer.Capture.Rate
import FrameServer.Proofs.Number.Arithmetic

/-!
# FrameServer.Proofs.Capture.Rate — which window the measured rate is of

Window number `j` runs from tick `w * (j - 1)` to tick `w * j`, the first tick of all
being number 0. The measured rate is that of the last window that is over and took time;
a number of nanoseconds is above zero in seconds exactly if it is above zero.

1. **Seconds** above zero.
2. **Windows** that are over, and the last one that took time.
3. **Ticks**: what a row of them leaves.
-/

namespace FrameServer

/-! ## Seconds -/

/-- No nanoseconds are no part of a second. -/
theorem zero_div_second : Binary64.ofNat 0 / .ofNat nanosecondsPerSecond = 0 :=
  Binary64.zero_div_ofNat (by decide) (by decide)

theorem inSeconds_zero : inSeconds 0 = 0 := by
  show Binary64.ofNat 0 + .ofNat 0 / .ofNat nanosecondsPerSecond = 0
  rw [zero_div_second]
  rfl

/-- The whole seconds and the fraction of one are not both zero, and neither is lost when
they are added. -/
theorem normal_inSeconds {n : Nat} (hn : 0 < n) : (inSeconds n).Normal := by
  unfold inSeconds
  have hsplit := Nat.div_add_mod n nanosecondsPerSecond
  have hsmall : n % nanosecondsPerSecond < 2 ^ 53 :=
    Nat.lt_trans (Nat.mod_lt _ (by decide)) (by decide)
  have hfraction : 0 < n % nanosecondsPerSecond →
      (Binary64.ofNat (n % nanosecondsPerSecond) / .ofNat nanosecondsPerSecond).Normal := by
    intro hpos
    exact Binary64.normal_ofNat_div_ofNat hpos hsmall (by decide) (by decide)
  rcases Nat.eq_zero_or_pos (n / nanosecondsPerSecond) with hwhole | hwhole
  · have hpos : 0 < n % nanosecondsPerSecond := by
      rw [hwhole, Nat.mul_zero, Nat.zero_add] at hsplit
      rw [hsplit]
      exact hn
    rw [hwhole]
    show (0 + _ : Binary64).Normal
    rw [(hfraction hpos).zero_add]
    exact hfraction hpos
  · have hseconds := Binary64.normal_ofNat hwhole
    rcases Nat.eq_zero_or_pos (n % nanosecondsPerSecond) with hrest | hrest
    · rw [hrest, zero_div_second, hseconds.add_zero]
      exact hseconds
    · exact hseconds.add (hfraction hrest)

theorem zero_lt_inSeconds_iff {n : Nat} : Binary64.lt 0 (inSeconds n) = true ↔ 0 < n := by
  constructor
  · intro hlt
    rcases Nat.eq_zero_or_pos n with rfl | hn
    · rw [inSeconds_zero] at hlt
      exact absurd hlt (by decide)
    · exact hn
  · intro hn
    exact (normal_inSeconds hn).zero_lt

namespace RateEstimate

/-! ## Windows -/

/-- The rate of window number `j`. -/
def rateOf (w : Nat) (t : Nat → Nat) (j : Nat) : Binary64 :=
  .ofNat w / inSeconds (t (w * j) - t (w * (j - 1)))

/-- The windows up to number `k` that took time. -/
def timed (w : Nat) (t : Nat → Nat) (k : Nat) : Set Nat :=
  {j | 1 ≤ j ∧ j ≤ k ∧ t (w * (j - 1)) < t (w * j)}

/-- The rate of the last one of the first `k` windows that took time. -/
def lastRate (w : Nat) (t : Nat → Nat) : Nat → Binary64
  | 0 => 0
  | k + 1 => if t (w * k) < t (w * (k + 1)) then rateOf w t (k + 1) else lastRate w t k

variable {w : Nat} {t : Nat → Nat}

theorem timed_succ_of_not_lt {k : Nat} (hk : ¬ t (w * k) < t (w * (k + 1))) :
    timed w t (k + 1) = timed w t k := by
  ext j
  constructor
  · rintro ⟨hfirst, hlast, hlt⟩
    refine ⟨hfirst, ?_, hlt⟩
    rcases Nat.lt_or_eq_of_le hlast with hless | rfl
    · exact Nat.le_of_lt_succ hless
    · exact absurd hlt hk
  · rintro ⟨hfirst, hlast, hlt⟩
    exact ⟨hfirst, Nat.le_succ_of_le hlast, hlt⟩

theorem lastRate_spec (w : Nat) (t : Nat → Nat) (k : Nat) :
    (∃ j, IsGreatest (timed w t k) j ∧ lastRate w t k = rateOf w t j) ∨
      (timed w t k = ∅ ∧ lastRate w t k = 0) := by
  induction k with
  | zero =>
    right
    refine ⟨Set.eq_empty_of_forall_notMem ?_, rfl⟩
    rintro j ⟨hfirst, hlast, -⟩
    exact absurd (Nat.le_trans hfirst hlast) (by decide)
  | succ k ih =>
    by_cases hk : t (w * k) < t (w * (k + 1))
    · -- this window is the last one that took time
      left
      exact ⟨k + 1, ⟨⟨Nat.le_add_left 1 k, Nat.le_refl _, hk⟩, fun j hj => hj.2.1⟩, if_pos hk⟩
    · rw [timed_succ_of_not_lt hk, lastRate, if_neg hk]
      exact ih

/-! ## Ticks -/

/-- The estimate after the first ticks of a row. -/
def ticked (window : Nat) (t : Nat → Nat) : Nat → RateEstimate
  | 0 => new window
  | n + 1 => (ticked window t n).tick (t n)

theorem tick_within {e : RateEstimate} {start : Nat} (hopened : e.opened = some start)
    (hcount : e.count + 1 < e.window) (now : Nat) :
    e.tick now = { e with count := e.count + 1 } := by
  rw [tick, hopened]
  exact if_pos hcount

/-- The last tick of a window opens the next one. -/
theorem tick_last {e : RateEstimate} {start : Nat} (hopened : e.opened = some start)
    (hcount : e.count + 1 = e.window) (now : Nat) :
    e.tick now = ⟨e.window, 0, some now,
      if start < now then .ofNat e.window / inSeconds (now - start) else e.rate⟩ := by
  have helapsed : (Binary64.lt 0 (inSeconds (now - start)) = true) = (start < now) := by
    rw [zero_lt_inSeconds_iff, Nat.sub_pos_iff_lt]
  rw [tick, hopened]
  dsimp only
  rw [if_neg (by omega)]
  simp only [helapsed, hcount]

/-- After tick number `i`, `i % w` ticks have come since the last window was over. -/
theorem ticked_succ (window : Nat) (t : Nat → Nat) (i : Nat) :
    let w := max window 1
    ticked window t (i + 1) = ⟨w, i % w, some (t (w * (i / w))), lastRate w t (i / w)⟩ := by
  intro w
  have hpos : 0 < w := lt_max_of_lt_right Nat.one_pos
  induction i with
  | zero =>
    rw [Nat.zero_mod, Nat.zero_div, Nat.mul_zero]
    rfl
  | succ i ih =>
    rw [ticked, ih]
    have hsplit := Nat.div_add_mod i w
    have hlt := Nat.mod_lt i hpos
    generalize i / w = q at *
    generalize i % w = r at *
    rcases Nat.lt_or_eq_of_le (Nat.succ_le_of_lt hlt) with hmore | hlast
    · have hmod : (i + 1) % w = r + 1 := by
        rw [← hsplit, Nat.add_assoc, Nat.mul_add_mod, Nat.mod_eq_of_lt hmore]
      have hdiv : (i + 1) / w = q := by
        rw [← hsplit, Nat.add_assoc, Nat.mul_add_div hpos, Nat.div_eq_of_lt hmore, Nat.add_zero]
      rw [tick_within rfl hmore, hmod, hdiv]
    · have hnext : w * (q + 1) = i + 1 := by
        rw [Nat.mul_succ, ← hsplit, Nat.add_assoc]
        exact congrArg (w * q + ·) hlast.symm
      have hmod : (i + 1) % w = 0 := by rw [← hnext, Nat.mul_mod_right]
      have hdiv : (i + 1) / w = q + 1 := by rw [← hnext, Nat.mul_div_cancel_left _ hpos]
      rw [tick_last rfl hlast, hmod, hdiv, hnext, lastRate, rateOf, hnext, Nat.add_sub_cancel]

theorem count_ticked_lt (window : Nat) (t : Nat → Nat) (n : Nat) :
    (ticked window t n).count < max window 1 := by
  have hpos : 0 < max window 1 := lt_max_of_lt_right Nat.one_pos
  cases n with
  | zero => exact hpos
  | succ n =>
    rw [ticked_succ]
    exact Nat.mod_lt n hpos

/-- The count never gets as high as a window has frames. After tick number `i` the rate is
that of the last window that was over by then and took time, which is its number of frames
over its seconds; if there is none it is zero. -/
theorem rate_of_last_timed_window (window : Nat) (t : Nat → Nat) :
    (∀ n, (ticked window t n).count < max window 1) ∧
      ∀ i, let w := max window 1
        let past := {j | 1 ≤ j ∧ w * j ≤ i ∧ t (w * (j - 1)) < t (w * j)}
        let rate := (ticked window t (i + 1)).rate
        (∃ j, IsGreatest past j ∧ rate = .ofNat w / inSeconds (t (w * j) - t (w * (j - 1)))) ∨
          (past = ∅ ∧ rate = 0) := by
  refine ⟨count_ticked_lt window t, ?_⟩
  intro i w past rate
  have hpos : 0 < w := lt_max_of_lt_right Nat.one_pos
  have hpast : past = timed w t (i / w) := by
    ext j
    show 1 ≤ j ∧ w * j ≤ i ∧ _ ↔ 1 ≤ j ∧ j ≤ i / w ∧ _
    rw [Nat.le_div_iff_mul_le hpos, Nat.mul_comm]
  have hrate : rate = lastRate w t (i / w) := congrArg RateEstimate.rate (ticked_succ window t i)
  rw [hpast, hrate]
  exact lastRate_spec w t (i / w)

end RateEstimate

end FrameServer
