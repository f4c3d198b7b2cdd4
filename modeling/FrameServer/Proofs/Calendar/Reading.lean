import FrameServer.Proofs.Calendar.Gregorian
import FrameServer.Proofs.Calendar.Instant
import FrameServer.Proofs.Decimal.Fixed

/-!
# FrameServer.Proofs.Calendar.Reading — instants read back from their texts

A date is read by counting the days up to it, a clock by counting the seconds since
midnight; second 60 is the leap second behind second 59. What is read from the texts of
an instant of the years 0 to 9999 is that instant, less what it has beyond a whole
millisecond.

1. **Reading** dates, clocks and instants.
2. **Dates**
3. **Clocks**
4. **Instants**
-/

namespace FrameServer.Calendar

open Decimal (padded notMem_padded digits? digits?_padded)

/-! ## Reading -/

/-- The day number of the date that `YYYY.MM.DD` denotes, if the calendar has that date:
the days since 1970-01-01. -/
def readDay? (text : List Char) : Option Int :=
  match text.splitOn '.' with
  | [year, month, day] => do
    let year ← digits? 4 year
    let month ← digits? 2 month
    let day ← digits? 2 day
    if (Date.mk year month day).isValid then
      some (Date.daysFromYearZero year month day - Date.daysFromYearZero 1970 1 1)
    else none
  | _ => none

/-- The seconds since midnight, and the nanoseconds beside them, at which a clock shows
`HH:MM:SS.mmm`. The nanoseconds of second 60 come on top of those of second 59. -/
def readClock? (text : List Char) : Option (Nat × Nat) :=
  match text.splitOn ':' with
  | [hour, minute, rest] =>
    match rest.splitOn '.' with
    | [second, millisecond] => do
      let hour ← digits? 2 hour
      let minute ← digits? 2 minute
      let second ← digits? 2 second
      let millisecond ← digits? 3 millisecond
      if hour < 24 ∧ minute < 60 ∧ second ≤ 60 then
        some (3600 * hour + 60 * minute + min second 59,
          second / 60 * Instant.second + 1000000 * millisecond)
      else none
    | _ => none
  | _ => none

namespace Instant

/-- The instant with a date and a time of day. -/
def read? (date clock : List Char) : Option Instant := do
  let day ← readDay? date
  let (seconds, nanoseconds) ← readClock? clock
  return ⟨86400 * day + seconds, nanoseconds⟩

/-- The instant without what it has beyond a whole millisecond. -/
def wholeMilliseconds (t : Instant) : Instant :=
  { t with nanoseconds := t.nanoseconds / 1000000 * 1000000 }

/-- A moment of the years 0 to 9999; a leap second comes at the end of a minute. -/
structure Regular (t : Instant) : Prop where
  year_nonneg : 0 ≤ t.date.year
  year_le : t.date.year ≤ 9999
  nanoseconds_lt : t.nanoseconds < 2 * second
  leap : second ≤ t.nanoseconds → t.seconds % 60 = 59

end Instant

/-! ## Dates -/

/-- The first day of 1970 has day number 0. -/
theorem Date.dayNumber_eq_sub {d : Date} (hvalid : d.isValid = true) {year : Nat}
    (hyear : d.year = year) :
    d.dayNumber = daysFromYearZero year d.month d.day - daysFromYearZero 1970 1 1 := by
  have hepoch : (Date.mk 1970 1 1).dayNumber = daysFromYearZero 1970 1 1 - 719528 :=
    dayNumber_eq_daysFromYearZero (by decide) rfl
  have hzero : (Date.mk 1970 1 1).dayNumber = 0 := by decide
  have hday := dayNumber_eq_daysFromYearZero hvalid hyear
  omega

theorem Date.monthLength_le (year : Int) (month : Nat) : monthLength year month ≤ 31 := by
  unfold monthLength
  split
  · split <;> decide
  · split <;> decide

theorem readDay?_padded {year month day : Nat} (hyear : year < 10 ^ 4) (hmonth : month < 10 ^ 2)
    (hday : day < 10 ^ 2) :
    readDay? (padded 4 year ++ '.' :: padded 2 month ++ '.' :: padded 2 day) =
      if (Date.mk year month day).isValid then
        some (Date.daysFromYearZero year month day - Date.daysFromYearZero 1970 1 1 : Int)
      else none := by
  have hsplit : (padded 4 year ++ '.' :: padded 2 month ++ '.' :: padded 2 day).splitOn '.' =
      [padded 4 year, padded 2 month, padded 2 day] := by
    rw [List.append_assoc, List.cons_append,
      List.splitOn_append_cons_self_of_not_mem (notMem_padded (by decide) _ _),
      List.splitOn_append_cons_self_of_not_mem (notMem_padded (by decide) _ _),
      List.splitOn_eq_singleton (notMem_padded (by decide) _ _)]
  rw [readDay?, hsplit]
  simp only [digits?_padded (by decide) hyear, digits?_padded (by decide) hmonth,
    digits?_padded (by decide) hday, Option.bind_eq_bind, Option.bind_some]

/-! ## Clocks -/

theorem readClock?_padded {hour minute second millisecond : Nat} (hhour : hour < 24)
    (hminute : minute < 60) (hsecond : second ≤ 60) (hmillisecond : millisecond < 10 ^ 3) :
    readClock? (padded 2 hour ++ ':' :: padded 2 minute ++ ':' :: padded 2 second ++
        '.' :: padded 3 millisecond) =
      some (3600 * hour + 60 * minute + min second 59,
        second / 60 * Instant.second + 1000000 * millisecond) := by
  have hcolon : ':' ∉ padded 2 second ++ '.' :: padded 3 millisecond := by
    rw [List.mem_append, List.mem_cons, not_or, not_or]
    exact ⟨notMem_padded (by decide) _ _, by decide, notMem_padded (by decide) _ _⟩
  have hsplit : (padded 2 hour ++ ':' :: padded 2 minute ++ ':' :: padded 2 second ++
        '.' :: padded 3 millisecond).splitOn ':' =
      [padded 2 hour, padded 2 minute, padded 2 second ++ '.' :: padded 3 millisecond] := by
    rw [List.append_assoc, List.append_assoc, List.cons_append, List.cons_append,
      List.splitOn_append_cons_self_of_not_mem (notMem_padded (by decide) _ _),
      List.splitOn_append_cons_self_of_not_mem (notMem_padded (by decide) _ _),
      List.splitOn_eq_singleton hcolon]
  have hpoint : (padded 2 second ++ '.' :: padded 3 millisecond).splitOn '.' =
      [padded 2 second, padded 3 millisecond] := by
    rw [List.splitOn_append_cons_self_of_not_mem (notMem_padded (by decide) _ _),
      List.splitOn_eq_singleton (notMem_padded (by decide) _ _)]
  have hseconds : second < 10 ^ 2 := Nat.lt_of_le_of_lt hsecond (by decide)
  rw [readClock?, hsplit]
  simp only [hpoint, digits?_padded (by decide) (Nat.lt_trans hhour (by decide : 24 < 10 ^ 2)),
    digits?_padded (by decide) (Nat.lt_trans hminute (by decide : 60 < 10 ^ 2)),
    digits?_padded (by decide) hseconds, digits?_padded (by decide) hmillisecond,
    Option.bind_eq_bind, Option.bind_some, hhour, hminute, hsecond, and_self, if_true]

/-! ## Instants -/

namespace Instant

variable {t : Instant}

theorem readDay?_dateText (ht : t.Regular) : readDay? t.dateText = some (t.seconds / 86400) := by
  obtain ⟨year, hyear⟩ := Int.eq_ofNat_of_zero_le ht.year_nonneg
  have hvalid : t.date.isValid = true := Date.isValid_ofDayNumber _
  obtain ⟨⟨-, hlast⟩, -, hlength⟩ := Date.isValid_iff.mp hvalid
  have hmost := Date.monthLength_le t.date.year t.date.month
  have hle := ht.year_le
  have htext : yearText t.date.year = padded 4 year := by
    rw [yearText, if_pos ⟨ht.year_nonneg, hle⟩, hyear]
    rfl
  have hdate : Date.mk year t.date.month t.date.day = t.date := by
    rw [← hyear]
  have hnumber : t.date.dayNumber = t.seconds / 86400 := Date.dayNumber_ofDayNumber _
  rw [dateText, htext, readDay?_padded (by omega) (by omega) (by omega), hdate, if_pos hvalid,
    ← Date.dayNumber_eq_sub hvalid hyear, hnumber]

/-- The clock shows a leap second as second 60, and every other one as it is. -/
theorem readClock?_clockText (ht : t.Regular) :
    readClock? (t.clockText ':') = some (t.inDay, t.wholeMilliseconds.nanoseconds) := by
  have hday : t.inDay < 86400 := by
    unfold inDay
    omega
  have hleap : second ≤ t.nanoseconds → t.inDay % 60 = 59 := by
    intro hle
    have hminute := ht.leap hle
    unfold inDay
    omega
  have hlt := ht.nanoseconds_lt
  unfold second at hlt hleap
  have hsecond : t.secondOfMinute ≤ 60 := by
    unfold secondOfMinute second
    omega
  have hmillisecond : t.millisecond < 10 ^ 3 := by
    unfold millisecond second
    omega
  rw [clockText, readClock?_padded (by unfold hour; omega) (by unfold minute; omega) hsecond
    hmillisecond, Option.some_inj, Prod.mk.injEq]
  unfold hour minute secondOfMinute millisecond wholeMilliseconds second
  constructor
  · omega
  · dsimp only
    omega

/-- What is read from the texts of an instant is the instant to the millisecond. -/
theorem read?_texts (ht : t.Regular) :
    read? t.dateText (t.clockText ':') = some t.wholeMilliseconds := by
  have hseconds : 86400 * (t.seconds / 86400) + (t.inDay : Int) = t.seconds := by
    unfold inDay
    omega
  simp only [read?, readDay?_dateText ht, readClock?_clockText ht, Option.bind_eq_bind,
    Option.bind_some, Option.pure_def, hseconds]
  rfl

/-- Half a second into the leap second at the end of 2016. -/
example : read? "2016.12.31".toList "23:59:60.500".toList = some ⟨1483228799, 1500000000⟩ := by
  decide +kernel

end Instant

end FrameServer.Calendar
