import FrameServer.Decimal.Notation

/-!
# FrameServer.Proofs.Decimal.Digits — reading padded numbers back

Filling a number up with zeros keeps its value, so the text of a number fixes the
number whatever it was padded to, and a mark that is no digit shows where the
number ends.
-/

namespace FrameServer.Decimal

theorem isDigit_of_mem_padded {width n : Nat} {c : Char} (hc : c ∈ padded width n) :
    c.isDigit := by
  rcases List.mem_append.mp hc with hzero | hdigit
  · rw [List.eq_of_mem_replicate hzero]
    decide
  · exact Nat.isDigit_of_mem_toDigits (by decide) (by decide) hdigit

/-- A mark that is no digit is not in a padded number. -/
theorem notMem_padded {mark : Char} (hmark : mark.isDigit = false) (width n : Nat) :
    mark ∉ padded width n := by
  intro hmem
  rw [isDigit_of_mem_padded hmem] at hmark
  cases hmark

/-- The zeros in front do not change the value. -/
@[simp] theorem ofDigitChars_padded (width n : Nat) :
    Nat.ofDigitChars 10 (padded width n) 0 = n := by
  rw [padded, Nat.ofDigitChars_append, Nat.ofDigitChars_replicate_zero, Nat.mul_zero]
  exact Nat.ofDigitChars_ten_toDigits

theorem eq_of_padded_eq {width width' m n : Nat} (h : padded width m = padded width' n) :
    m = n := by
  rw [← ofDigitChars_padded width m, h, ofDigitChars_padded]

/-! ## Marks -/

/-- Two texts with the same mark in them agree in front of its first place and
behind it. -/
theorem eq_of_append_mark_eq {α : Type} {mark : α} {front front' rest rest' : List α}
    (hfront : mark ∉ front) (hfront' : mark ∉ front')
    (h : front ++ mark :: rest = front' ++ mark :: rest') : front = front' ∧ rest = rest' := by
  induction front generalizing front' with
  | nil =>
    cases front' with
    | nil => exact ⟨rfl, (List.cons.inj h).2⟩
    | cons c later =>
      have hc : mark = c := (List.cons.inj h).1
      exact absurd (hc ▸ List.mem_cons_self) hfront'
  | cons c later ih =>
    cases front' with
    | nil =>
      have hc : c = mark := (List.cons.inj h).1
      exact absurd (hc ▸ List.mem_cons_self) hfront
    | cons c' later' =>
      obtain ⟨hc, hlater⟩ := List.cons.inj h
      rw [List.mem_cons, not_or] at hfront hfront'
      obtain ⟨heq, hrest⟩ := ih hfront.2 hfront'.2 hlater
      exact ⟨by rw [hc, heq], hrest⟩

/-- Two texts that begin with a padded number and go on with the same mark agree
in the number and behind the mark. -/
theorem eq_of_padded_mark_eq {mark : Char} (hmark : mark.isDigit = false)
    {width width' m n : Nat} {rest rest' : List Char}
    (h : padded width m ++ mark :: rest = padded width' n ++ mark :: rest') :
    m = n ∧ rest = rest' := by
  obtain ⟨hnumber, hrest⟩ :=
    eq_of_append_mark_eq (notMem_padded hmark width m) (notMem_padded hmark width' n) h
  exact ⟨eq_of_padded_eq hnumber, hrest⟩

end FrameServer.Decimal
