import FrameServer.Calendar.Date

/-!
# FrameServer.Proofs.Calendar.Date — dates and day numbers

A day number is read off its date again. Within 400 years the division into
centuries, blocks of four years and years leaves an honest remainder at each
stage, the last century, block and year being one day longer.
-/

namespace FrameServer.Calendar.Date

/-- The month of a day begins at or before it. -/
theorem daysBefore_monthOf_le (d : Nat) : daysBefore (monthOf d) ≤ d := by
  unfold daysBefore monthOf
  omega

theorem monthOf_lt {d : Nat} (hd : d < 366) : monthOf d < 12 := by
  unfold monthOf
  omega

/-- The days before a March year, counted block by block. -/
theorem days_eq_blocks (era : Int) {century four year : Nat} (hcentury : century ≤ 3)
    (hfour : four ≤ 24) (hyear : year ≤ 3) {marchYear : Int}
    (hmarch : marchYear = 400 * era + 100 * century + 4 * four + year) :
    365 * marchYear + marchYear / 4 - marchYear / 100 + marchYear / 400 =
      146097 * era + 36524 * century + 1461 * four + 365 * year := by
  have hfours : marchYear / 4 = 100 * era + 25 * century + four := by omega
  have hcenturies : marchYear / 100 = 4 * era + century := by omega
  have heras : marchYear / 400 = era := by omega
  rw [hfours, hcenturies, heras]
  omega

/-- The day number of a date is the one that the date was made from. -/
theorem dayNumber_ofDayNumber (n : Int) : (ofDayNumber n).dayNumber = n := by
  have hdays : 146097 * ((n + epochDay) / 146097) + ((n + epochDay) % 146097).toNat =
      n + epochDay := by omega
  have hera : ((n + epochDay) % 146097).toNat < 146097 := by omega
  simp only [ofDayNumber]
  generalize (n + epochDay) / 146097 = era at *
  generalize ((n + epochDay) % 146097).toNat = inEra at *
  generalize hcentury : min (inEra / 36524) 3 = century
  generalize hinCentury : inEra - 36524 * century = inCentury
  have hcenturies : inEra = 36524 * century + inCentury := by omega
  have hfour : inCentury / 1461 ≤ 24 := by omega
  generalize hyear : min (inCentury % 1461 / 365) 3 = year
  generalize hinYear : inCentury % 1461 - 365 * year = inYear
  have hfours : inCentury = 1461 * (inCentury / 1461) + 365 * year + inYear := by omega
  have hlast : inYear < 366 := by omega
  have hmonth := monthOf_lt hlast
  have hbefore := daysBefore_monthOf_le inYear
  generalize hmarch : 400 * era + 100 * (century : Int) + 4 * (inCentury / 1461) + year = marchYear
  have hblocks : 365 * marchYear + marchYear / 4 - marchYear / 100 + marchYear / 400 =
      146097 * era + 36524 * century + 1461 * (inCentury / 1461) + 365 * year :=
    days_eq_blocks era (by omega) hfour (by omega) hmarch.symm
  clear hmarch hfour hinYear hyear hinCentury hcentury hera
  have htotal : 365 * marchYear + marchYear / 4 - marchYear / 100 + marchYear / 400 + inYear =
      n + epochDay := by
    rw [hblocks, ← hdays, hcenturies]
    omega
  clear hblocks hfours hcenturies hdays
  generalize monthOf inYear = m at *
  by_cases hspring : m < 10
  · have hafter : ¬ m + 3 < 3 := by omega
    simp only [dayNumber, hspring, hafter, if_true, if_false]
    rw [Nat.add_sub_cancel]
    omega
  · have hafter : m - 9 < 3 := by omega
    simp only [dayNumber, hspring, hafter, if_true, if_false]
    rw [Nat.sub_add_cancel (by omega), Int.add_sub_cancel]
    omega

end FrameServer.Calendar.Date
