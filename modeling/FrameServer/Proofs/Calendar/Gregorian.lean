import Mathlib.Algebra.BigOperators.Intervals
import Mathlib.Tactic.IntervalCases
import FrameServer.Proofs.Calendar.Date

/-!
# FrameServer.Proofs.Calendar.Gregorian — the calendar behind day numbers

The dates that days are given are dates of the calendar: their months exist and have
that many days. And the day number of a date is the number of days that come before it
when they are counted year by year and month by month, leap years being what they are.

1. **Dates of days**: the last day of a March year is there in leap years only.
2. **Counting days** from 0000-01-01 on.
-/

namespace FrameServer.Calendar.Date

theorem isValid_iff {d : Date} :
    d.isValid = true ↔
      (1 ≤ d.month ∧ d.month ≤ 12) ∧ 1 ≤ d.day ∧ d.day ≤ monthLength d.year d.month := by
  simp [isValid, and_assoc]

theorem isLeap_iff {year : Int} :
    isLeap year = true ↔ year % 4 = 0 ∧ (year % 100 ≠ 0 ∨ year % 400 = 0) := by
  simp [isLeap]

/-! ## Dates of days -/

/-- The date of a day of a March year. -/
def ofMarch (year : Int) (inYear : Nat) : Date :=
  let month := monthOf inYear
  { year := if month < 10 then year else year + 1
    month := if month < 10 then month + 3 else month - 9
    day := inYear - daysBefore month + 1 }

/-- The day that a March year has only if it ends in a leap year is the 366th. -/
theorem exists_eq_ofMarch (n : Int) :
    ∃ year inYear, ofDayNumber n = ofMarch year inYear ∧ inYear < 366 ∧
      (inYear = 365 → isLeap (year + 1) = true) := by
  have hera : ((n + epochDay) % 146097).toNat < 146097 := by omega
  simp only [ofDayNumber]
  generalize (n + epochDay) / 146097 = era at *
  generalize ((n + epochDay) % 146097).toNat = inEra at *
  generalize hcentury : min (inEra / 36524) 3 = century
  generalize hinCentury : inEra - 36524 * century = inCentury
  generalize hyear : min (inCentury % 1461 / 365) 3 = year
  generalize hinYear : inCentury % 1461 - 365 * year = inYear
  generalize hmarch : 400 * era + 100 * (century : Int) + 4 * (inCentury / 1461) + year = marchYear
  refine ⟨marchYear, inYear, rfl, by omega, ?_⟩
  intro hlast
  have hthird : year = 3 := by omega
  have hfour : inCentury / 1461 ≤ 24 := by omega
  -- a block of four years ends a century only if the century is the last one of its era
  have hend : inCentury / 1461 = 24 → century = 3 := by omega
  rw [isLeap_iff]
  omega

theorem isValid_ofMarch {year : Int} {inYear : Nat} (hlt : inYear < 366)
    (hleap : inYear = 365 → isLeap (year + 1) = true) : (ofMarch year inYear).isValid = true := by
  have hmonth := monthOf_lt hlt
  have hbegin : 153 * monthOf inYear ≤ 5 * inYear + 2 := by
    unfold monthOf
    omega
  have hend : 5 * inYear + 2 < 153 * (monthOf inYear + 1) := by
    unfold monthOf
    omega
  rw [isValid_iff, ofMarch]
  dsimp only
  generalize monthOf inYear = month at *
  unfold daysBefore
  interval_cases month <;> simp only [monthLength, reduceIte, Nat.reduceLT, Nat.reduceAdd,
    Nat.reduceSub, Nat.reduceEqDiff, or_true, or_false]
  case «11» =>
    -- February
    by_cases hday : inYear = 365
    · rw [if_pos (hleap hday)]
      omega
    · split <;> omega
  all_goals omega

/-- Every day has a date of the calendar. -/
theorem isValid_ofDayNumber (n : Int) : (ofDayNumber n).isValid = true := by
  obtain ⟨year, inYear, hdate, hlt, hleap⟩ := exists_eq_ofMarch n
  rw [hdate]
  exact isValid_ofMarch hlt hleap

/-! ## Counting days -/

/-- The day that a leap year has more. -/
def leapDay (year : Int) : Nat := if isLeap year then 1 else 0

def yearLength (year : Int) : Nat := 365 + leapDay year

/-- How many days lie between 0000-01-01 and a date of a year from 0 on. -/
def daysFromYearZero (year month day : Nat) : Nat :=
  ∑ y ∈ Finset.range year, yearLength y + ∑ m ∈ Finset.Ico 1 month, monthLength year m + (day - 1)

/-- A year more is a leap day more if it is a leap year. -/
theorem leapYears_eq (year : Int) :
    year / 4 - year / 100 + year / 400 =
      (year - 1) / 4 - (year - 1) / 100 + (year - 1) / 400 + leapDay year := by
  unfold leapDay
  by_cases hleap : isLeap year = true
  · rw [if_pos hleap]
    rw [isLeap_iff] at hleap
    omega
  · rw [if_neg hleap]
    rw [isLeap_iff] at hleap
    omega

/-- The years before a year; year 0 is a leap year. -/
theorem sum_yearLength (year : Nat) :
    ((∑ y ∈ Finset.range year, yearLength y : Nat) : Int) =
      365 * year +
        ((year - 1 : Int) / 4 - (year - 1 : Int) / 100 + (year - 1 : Int) / 400) + 1 := by
  induction year with
  | zero => decide
  | succ year ih =>
    have hnext : ((year + 1 : Nat) : Int) - 1 = year := by
      rw [Int.natCast_succ, Int.add_sub_cancel]
    rw [Finset.sum_range_succ, Int.natCast_add, ih, hnext, leapYears_eq year, yearLength]
    generalize (year - 1 : Int) / 4 - (year - 1 : Int) / 100 + (year - 1 : Int) / 400 = leaps
    clear ih
    omega

/-- The months before a month, as they are counted from March on. -/
theorem sum_monthLength (year : Int) {month : Nat} (hfirst : 1 ≤ month) (hlast : month ≤ 12) :
    ∑ m ∈ Finset.Ico 1 month, monthLength year m =
      if month < 3 then daysBefore (month + 9) - 306
      else daysBefore (month - 3) + 59 + leapDay year := by
  interval_cases month <;> simp [Finset.sum_Ico_succ_top, monthLength, daysBefore, leapDay]
  all_goals split <;> rfl

/-- The day number of a date is how many days are counted before it, the ones before
1970-01-01 taken off. -/
theorem dayNumber_eq_daysFromYearZero {d : Date} (hvalid : d.isValid = true) {year : Nat}
    (hyear : d.year = year) : d.dayNumber = daysFromYearZero year d.month d.day - 719528 := by
  obtain ⟨⟨hfirst, hlast⟩, hday, -⟩ := isValid_iff.mp hvalid
  have hyears := sum_yearLength year
  have hmonths := sum_monthLength year hfirst hlast
  have hleap := leapYears_eq year
  unfold daysFromYearZero dayNumber epochDay
  rw [hyear]
  generalize ∑ y ∈ Finset.range year, yearLength y = before at *
  generalize ∑ m ∈ Finset.Ico 1 d.month, monthLength year m = within at *
  by_cases hspring : d.month < 3
  · -- a month of the March year before
    have hbegin : 306 ≤ daysBefore (d.month + 9) := by
      unfold daysBefore
      omega
    rw [if_pos hspring] at hmonths
    simp only [hspring, if_true]
    clear hleap
    generalize (year - 1 : Int) / 4 = fours, (year - 1 : Int) / 100 = hundreds,
      (year - 1 : Int) / 400 = eras at *
    omega
  · rw [if_neg hspring] at hmonths
    simp only [hspring, if_false]
    omega

end FrameServer.Calendar.Date
