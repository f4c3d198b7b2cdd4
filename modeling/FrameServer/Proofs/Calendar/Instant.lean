import FrameServer.Calendar.Instant
import FrameServer.Proofs.Calendar.Date
import FrameServer.Proofs.Decimal.Digits

/-!
# FrameServer.Proofs.Calendar.Instant — what the texts of an instant tell

The text of a date ends where its mark begins, and it fixes the day; the text of a
clock fixes the second of the day and the millisecond. Together they fix the
millisecond of an instant.

1. **Dates**: the year may have a sign; month and day are padded.
2. **Clocks**
3. **Moments** of the wall clock.
-/

namespace FrameServer.Calendar.Instant

open Decimal (padded notMem_padded eq_of_padded_eq eq_of_padded_mark_eq eq_of_append_mark_eq)

variable {t u : Instant} {rest rest' : List Char}

/-! ## Dates -/

theorem notMem_yearText {mark : Char} (hdigit : mark.isDigit = false) (hminus : mark ≠ '-')
    (hplus : mark ≠ '+') (year : Int) : mark ∉ yearText year := by
  unfold yearText
  by_cases hplain : 0 ≤ year ∧ year ≤ 9999
  · rw [if_pos hplain]
    exact notMem_padded hdigit _ _
  · rw [if_neg hplain, List.mem_cons, not_or]
    refine ⟨?_, notMem_padded hdigit _ _⟩
    by_cases hneg : year < 0
    · rw [if_pos hneg]
      exact hminus
    · rw [if_neg hneg]
      exact hplus

theorem eq_of_yearText_eq {year year' : Int} (h : yearText year = yearText year') :
    year = year' := by
  -- a sign is no digit, so a year with a sign is none without
  have hsign : ∀ {sign : Char} {digits : List Char} {n : Nat}, sign.isDigit = false →
      sign :: digits ≠ padded 4 n := by
    intro sign digits n hdigit heq
    exact notMem_padded hdigit 4 n (heq ▸ List.mem_cons_self)
  have hmark : ∀ y : Int, (if y < 0 then '-' else '+').isDigit = false := by
    intro y
    split <;> decide
  unfold yearText at h
  by_cases hplain : 0 ≤ year ∧ year ≤ 9999 <;> by_cases hplain' : 0 ≤ year' ∧ year' ≤ 9999
  · rw [if_pos hplain, if_pos hplain'] at h
    have hnat := eq_of_padded_eq h
    omega
  · rw [if_pos hplain, if_neg hplain'] at h
    exact absurd h.symm (hsign (hmark year'))
  · rw [if_neg hplain, if_pos hplain'] at h
    exact absurd h (hsign (hmark year))
  · rw [if_neg hplain, if_neg hplain'] at h
    obtain ⟨hsigns, hdigits⟩ := List.cons.inj h
    have habs := eq_of_padded_eq hdigits
    by_cases hneg : year < 0 <;> by_cases hneg' : year' < 0
    · omega
    · rw [if_pos hneg, if_neg hneg'] at hsigns
      exact absurd hsigns (by decide)
    · rw [if_neg hneg, if_pos hneg'] at hsigns
      exact absurd hsigns (by decide)
    · omega

theorem notMem_dateText {mark : Char} (hdigit : mark.isDigit = false) (hminus : mark ≠ '-')
    (hplus : mark ≠ '+') (hpoint : mark ≠ '.') (t : Instant) : mark ∉ t.dateText := by
  simp only [dateText, List.mem_append, List.mem_cons, not_or]
  exact ⟨⟨notMem_yearText hdigit hminus hplus _, hpoint, notMem_padded hdigit _ _⟩, hpoint,
    notMem_padded hdigit _ _⟩

theorem dateText_ne_nil (t : Instant) : t.dateText ≠ [] := by
  rw [dateText]
  exact List.append_ne_nil_of_right_ne_nil _ (List.cons_ne_nil _ _)

/-- A date text with a mark behind it fixes the date and what follows. -/
theorem eq_of_dateText_mark_eq {mark : Char} (hmark : mark.isDigit = false)
    (h : t.dateText ++ mark :: rest = u.dateText ++ mark :: rest') :
    t.date = u.date ∧ rest = rest' := by
  simp only [dateText, List.append_assoc, List.cons_append] at h
  have hpoint : ∀ year, '.' ∉ yearText year :=
    notMem_yearText (by decide) (by decide) (by decide)
  obtain ⟨hyear, h⟩ := eq_of_append_mark_eq (hpoint _) (hpoint _) h
  obtain ⟨hmonth, h⟩ := eq_of_padded_mark_eq (by decide) h
  obtain ⟨hday, hrest⟩ := eq_of_padded_mark_eq hmark h
  refine ⟨?_, hrest⟩
  rcases ht : t.date with ⟨year, month, day⟩
  rcases hu : u.date with ⟨year', month', day'⟩
  rw [ht, hu] at hyear hmonth hday
  rw [Date.mk.injEq]
  exact ⟨eq_of_yearText_eq hyear, hmonth, hday⟩

/-- The date fixes the day. -/
theorem day_eq_of_date_eq (h : t.date = u.date) : t.seconds / 86400 = u.seconds / 86400 := by
  have hday := congrArg Date.dayNumber h
  rwa [date, date, Date.dayNumber_ofDayNumber, Date.dayNumber_ofDayNumber] at hday

/-! ## Clocks -/

theorem notMem_clockText {separator mark : Char} (hdigit : mark.isDigit = false)
    (hseparator : mark ≠ separator) (hpoint : mark ≠ '.') (t : Instant) :
    mark ∉ t.clockText separator := by
  simp only [clockText, List.mem_append, List.mem_cons, not_or]
  exact ⟨⟨⟨notMem_padded hdigit _ _, hseparator, notMem_padded hdigit _ _⟩, hseparator,
    notMem_padded hdigit _ _⟩, hpoint, notMem_padded hdigit _ _⟩

/-- A clock text fixes what it shows. -/
theorem eq_of_clockText_eq {separator : Char} (hseparator : separator.isDigit = false)
    (h : t.clockText separator = u.clockText separator) :
    (t.hour = u.hour ∧ t.minute = u.minute) ∧
      t.secondOfMinute = u.secondOfMinute ∧ t.millisecond = u.millisecond := by
  simp only [clockText, List.append_assoc, List.cons_append] at h
  obtain ⟨hhour, h⟩ := eq_of_padded_mark_eq hseparator h
  obtain ⟨hminute, h⟩ := eq_of_padded_mark_eq hseparator h
  obtain ⟨hsecond, h⟩ := eq_of_padded_mark_eq (by decide) h
  exact ⟨⟨hhour, hminute⟩, hsecond, eq_of_padded_eq h⟩

/-! ## Moments -/

/-- The date and the clock of a moment fix it to the millisecond. -/
theorem eq_of_texts_eq {separator mark : Char} (hseparator : separator.isDigit = false)
    (hmark : mark.isDigit = false) {m n : Nat}
    (h : (ofMilliseconds m).dateText ++ mark :: (ofMilliseconds m).clockText separator =
      (ofMilliseconds n).dateText ++ mark :: (ofMilliseconds n).clockText separator) :
    m = n := by
  obtain ⟨hdate, hclock⟩ := eq_of_dateText_mark_eq hmark h
  obtain ⟨⟨hhour, hminute⟩, hsecond, hmillisecond⟩ := eq_of_clockText_eq hseparator hclock
  have hday := day_eq_of_date_eq hdate
  simp only [hour, minute, secondOfMinute, millisecond, inDay, second, ofMilliseconds] at *
  omega

end FrameServer.Calendar.Instant
