import FrameServer.Calendar.Date
import FrameServer.Decimal.Notation
import FrameServer.Decimal.Literal
import FrameServer.Toml.Text

/-!
# FrameServer.Toml.Moment — dates and times

A date, a time of day, or both with an optional offset. What is read is given
back in its normal form: `T` between date and time, `Z` for no offset, and a
fraction of at most nine digits without zeros at its end.
-/

namespace FrameServer.Toml

open Decimal (padded)

/-- A number of exactly `count` digits. -/
def exactly? (count : Nat) : Reader Nat := fun text =>
  (Decimal.natural? (text.take count)).bind fun n =>
    if count ≤ text.length then some (n, text.drop count) else none

/-- Takes a given character off. -/
def mark? (c : Char) : List Char → Option (List Char)
  | d :: rest => if d = c then some rest else none
  | [] => none

/-- A date that exists. -/
def date? : Reader (List Char) := fun text => do
  let (year, rest) ← exactly? 4 text
  let (month, rest) ← exactly? 2 (← mark? '-' rest)
  let (day, rest) ← exactly? 2 (← mark? '-' rest)
  if (Calendar.Date.mk year month day).isValid then
    some (padded 4 year ++ '-' :: padded 2 month ++ '-' :: padded 2 day, rest)
  else none

/-- The digits of a fraction in their normal form. -/
def normalFraction (digits : List Char) : List Char :=
  match ((digits.take 9).reverse.dropWhile (· = '0')).reverse with
  | [] => []
  | kept => '.' :: kept

/-- The fraction of a second, if there is one. -/
def secondFraction : List Char → List Char × List Char
  | '.' :: rest =>
    let digits := rest.takeWhile Char.isDigit
    if digits = [] then ([], '.' :: rest)
    else (normalFraction digits, rest.dropWhile Char.isDigit)
  | text => ([], text)

/-- A time of day; second 60 is a leap second. -/
def time? : Reader (List Char) := fun text => do
  let (hour, rest) ← exactly? 2 text
  let (minute, rest) ← exactly? 2 (← mark? ':' rest)
  let (second, rest) ← exactly? 2 (← mark? ':' rest)
  if hour < 24 ∧ minute < 60 ∧ second ≤ 60 then
    let (fraction, rest) := secondFraction rest
    some (padded 2 hour ++ ':' :: padded 2 minute ++ ':' :: padded 2 second ++ fraction, rest)
  else none

/-- The hours and minutes of an offset. -/
def offsetTime? : Reader (Nat × Nat) := fun text => do
  let (hour, rest) ← exactly? 2 text
  let (minute, rest) ← exactly? 2 (← mark? ':' rest)
  if hour < 24 ∧ minute < 60 then some ((hour, minute), rest) else none

/-- An offset, if there is one. An offset of nothing is written with a plus. -/
def offset? : Reader (List Char)
  | 'Z' :: rest => some (['Z'], rest)
  | 'z' :: rest => some (['Z'], rest)
  | c :: rest =>
    if c = '+' ∨ c = '-' then do
      let ((hour, minute), rest) ← offsetTime? rest
      let sign := if hour = 0 ∧ minute = 0 then '+' else c
      some (sign :: padded 2 hour ++ ':' :: padded 2 minute, rest)
    else some ([], c :: rest)
  | [] => some ([], [])

/-- What may follow a date: a time with an optional offset. -/
def timeAfterDate? : Reader (List Char)
  | c :: rest =>
    if c = 'T' ∨ c = 't' ∨ c = ' ' then do
      let (time, rest) ← time? rest
      let (offset, rest) ← offset? rest
      some ('T' :: time ++ offset, rest)
    else none
  | [] => none

/-- A date, a time, or both. -/
def moment? : Reader String := fun text =>
  match date? text with
  | some (date, rest) =>
    let (time, rest) := (timeAfterDate? rest).getD ([], rest)
    some (String.ofList (date ++ time), rest)
  | none => (time? text).map fun (time, rest) => (String.ofList time, rest)

end FrameServer.Toml
