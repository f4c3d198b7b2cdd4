import Mathlib.Algebra.Group.Nat.Defs
import FrameServer.Proofs.Decimal.Digits
import FrameServer.Proofs.Decimal.Numeral

/-!
# FrameServer.Proofs.Decimal.Fixed — numbers of a fixed form

A number that fits its width fills it, and is read back from just so many digits. A
number with fixed places is written in few characters, a blank or a line break not
among them.

1. **Fixed width**
2. **Fixed places**
-/

namespace FrameServer.Decimal

/-! ## Fixed width -/

/-- The number written with exactly `width` digits. -/
def digits? (width : Nat) (text : List Char) : Option Nat :=
  if text.length = width then natural? text else none

theorem padded_ne_nil (width n : Nat) : padded width n ≠ [] := by
  have hpos : 0 < (natural n).length := Nat.length_toDigits_pos
  exact List.append_ne_nil_of_right_ne_nil _ (List.length_pos_iff.mp hpos)

theorem length_padded {width n : Nat} (hwidth : 0 < width) (hn : n < 10 ^ width) :
    (padded width n).length = width := by
  have hle : (natural n).length ≤ width :=
    (Nat.length_toDigits_le_iff (by decide) hwidth).mpr hn
  rw [padded, List.length_append, List.length_replicate, Nat.sub_add_cancel hle]

@[simp] theorem natural?_padded (width n : Nat) : natural? (padded width n) = some n := by
  have hvalue : valueOf (padded width n) = n := ofDigitChars_padded width n
  have hdenotes := numeral_valueOf (padded_ne_nil width n) fun _ => isDigit_of_mem_padded
  rw [hvalue] at hdenotes
  exact natural?_eq_some_iff.mpr hdenotes

theorem digits?_padded {width n : Nat} (hwidth : 0 < width) (hn : n < 10 ^ width) :
    digits? width (padded width n) = some n := by
  rw [digits?, if_pos (length_padded hwidth hn), natural?_padded]

/-! ## Fixed places -/

/-- What is written without the sign. -/
def fixedUnsigned (places : Nat) (x : Binary64) : List Char :=
  if x.isInfinite then "inf".toList else fixedDigits places x

theorem fixed_eq (places : Nat) (x : Binary64) :
    fixed places x = if x.isNaN then "NaN".toList
      else if x.negative then '-' :: fixedUnsigned places x else fixedUnsigned places x := rfl

theorem fixed_ne_nil (places : Nat) (x : Binary64) : fixed places x ≠ [] := by
  have hunsigned : fixedUnsigned places x ≠ [] := by
    unfold fixedUnsigned
    split
    · decide
    · simp [fixedDigits]
  rw [fixed_eq]
  split
  · decide
  · split
    · exact List.cons_ne_nil _ _
    · exact hunsigned

/-- Nothing is written but digits, a point, a minus sign, and the letters of `NaN` and
`inf`. -/
theorem notMem_fixed {mark : Char} (hdigit : mark.isDigit = false)
    (hmark : mark ∉ ".-NaNinf".toList) (places : Nat) (x : Binary64) :
    mark ∉ fixed places x := by
  have hletters : mark ∉ ['.', '-', 'N', 'a', 'N', 'i', 'n', 'f'] := hmark
  simp only [List.mem_cons, List.not_mem_nil, or_false, not_or] at hletters
  obtain ⟨hpoint, hminus, hN, ha, -, hi, hn, hf⟩ := hletters
  have hdigits : mark ∉ fixedDigits places x := by
    unfold fixedDigits
    rw [List.mem_append, List.mem_cons, not_or, not_or]
    refine ⟨?_, hpoint, notMem_padded hdigit _ _⟩
    intro hmem
    rw [Nat.isDigit_of_mem_toDigits (by decide) (by decide) hmem] at hdigit
    cases hdigit
  have hunsigned : mark ∉ fixedUnsigned places x := by
    unfold fixedUnsigned
    split
    · simp [hi, hn, hf]
    · exact hdigits
  rw [fixed_eq]
  split
  · simp [hN, ha]
  · split
    · rw [List.mem_cons, not_or]
      exact ⟨hminus, hunsigned⟩
    · exact hunsigned

end FrameServer.Decimal
