import FrameServer.Calendar.Date
import FrameServer.Decimal.Notation

/-!
# FrameServer.Calendar.Instant — instants and their wall-clock text

An instant is a number of seconds since 1970-01-01 00:00:00 UTC and nanoseconds.
Nanoseconds of `10 ^ 9` and more belong to a leap second, which is shown as
second 60 of its minute.
-/

namespace FrameServer.Calendar

open Decimal (padded)

/-- A moment in UTC. -/
structure Instant where
  seconds : Int
  nanoseconds : Nat
deriving DecidableEq, Repr

namespace Instant

/-- Nanoseconds in a second. -/
def second : Nat := 1000000000

def date (t : Instant) : Date := .ofDayNumber (t.seconds / 86400)

/-- Seconds since midnight. -/
def inDay (t : Instant) : Nat := (t.seconds % 86400).toNat

def hour (t : Instant) : Nat := t.inDay / 3600

def minute (t : Instant) : Nat := t.inDay / 60 % 60

/-- The second of the minute; a leap second counts one more. -/
def secondOfMinute (t : Instant) : Nat := t.inDay % 60 + t.nanoseconds / second

/-- The whole milliseconds of the second. -/
def millisecond (t : Instant) : Nat := t.nanoseconds % second / 1000000

/-- The instant that lies a number of milliseconds after the epoch. -/
def ofMilliseconds (ms : Nat) : Instant := ⟨ms / 1000, ms % 1000 * 1000000⟩

/-! ## Text -/

/-- Four digits for the years 0 to 9999, else a sign and at least four digits. -/
def yearText (year : Int) : List Char :=
  if 0 ≤ year ∧ year ≤ 9999 then padded 4 year.toNat
  else (if year < 0 then '-' else '+') :: padded 4 year.natAbs

/-- `YYYY.MM.DD`. -/
def dateText (t : Instant) : List Char :=
  yearText t.date.year ++ '.' :: padded 2 t.date.month ++ '.' :: padded 2 t.date.day

/-- `HH`, `MM` and `SS` with a separator, then a point and milliseconds. -/
def clockText (separator : Char) (t : Instant) : List Char :=
  padded 2 t.hour ++ separator :: padded 2 t.minute ++ separator :: padded 2 t.secondOfMinute ++
    '.' :: padded 3 t.millisecond

/-- The part of a second with as many groups of three digits as it needs. -/
def fractionText (nanoseconds : Nat) : List Char :=
  if nanoseconds = 0 then []
  else if nanoseconds % 1000000 = 0 then '.' :: padded 3 (nanoseconds / 1000000)
  else if nanoseconds % 1000 = 0 then '.' :: padded 6 (nanoseconds / 1000)
  else '.' :: padded 9 nanoseconds

/-- `YYYY-MM-DDTHH:MM:SS+00:00`, with a fraction if there is one. -/
def rfc3339 (t : Instant) : List Char :=
  yearText t.date.year ++ '-' :: padded 2 t.date.month ++ '-' :: padded 2 t.date.day ++
    'T' :: padded 2 t.hour ++ ':' :: padded 2 t.minute ++ ':' :: padded 2 t.secondOfMinute ++
    fractionText (t.nanoseconds % second) ++ "+00:00".toList

end Instant

end FrameServer.Calendar
