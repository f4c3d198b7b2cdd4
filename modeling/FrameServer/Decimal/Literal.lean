import FrameServer.Number.Binary64

/-!
# FrameServer.Decimal.Literal — numbers read from decimal text

1. **Digits**: a value from ASCII digits, most significant first.
2. **Integers**: an optional sign and one or more digits, any number of leading
   zeros. An unsigned integer may carry a plus sign only.
3. **Floating point**: digits with an optional point and exponent, at least one
   digit before the exponent; `inf`, `infinity` and `nan` in any case.
-/

namespace FrameServer.Decimal

/-! ## Digits -/

/-- The value of a decimal digit. -/
def digitValue (c : Char) : Nat := c.toNat - '0'.toNat

/-- The number that a string of digits denotes. -/
def valueOf (digits : List Char) : Nat := digits.foldl (fun n c => 10 * n + digitValue c) 0

/-- The number denoted by one or more digits and nothing else. -/
def natural? (text : List Char) : Option Nat :=
  if text ≠ [] ∧ text.all Char.isDigit then some (valueOf text) else none

/-! ## Integers -/

/-- An optionally signed integer. -/
def integer? : List Char → Option Int
  | '-' :: digits => (natural? digits).map fun n => -(n : Int)
  | '+' :: digits => (natural? digits).map Int.ofNat
  | digits => (natural? digits).map Int.ofNat

/-- An unsigned integer, perhaps with a plus sign. -/
def unsigned? : List Char → Option Nat
  | '+' :: digits => natural? digits
  | digits => natural? digits

/-! ## Floating point -/

/-- Splits off what stands before the first character that `p` accepts. -/
def cut (p : Char → Bool) (text : List Char) : List Char × Option (List Char) :=
  match text.dropWhile (fun c => !p c) with
  | [] => (text, none)
  | _ :: rest => (text.takeWhile fun c => !p c, some rest)

/-- The digits around a point. One side may be empty, not both. -/
def mantissa? (text : List Char) : Option (Nat × Nat) :=
  let (whole, below) := cut (· == '.') text
  let below := below.getD []
  if (whole ++ below).all Char.isDigit && !(whole ++ below).isEmpty then
    some (valueOf (whole ++ below), below.length)
  else none

/-- A number without sign. -/
def magnitude? (text : List Char) : Option Binary64 :=
  let lower := text.map Char.toLower
  if lower = "inf".toList ∨ lower = "infinity".toList then some Binary64.infinity
  else if lower = "nan".toList then some Binary64.nan
  else do
    let (front, exponent) := cut (fun c => c == 'e' || c == 'E') text
    let (digits, places) ← mantissa? front
    let exponent ← match exponent with
      | none => some 0
      | some e => integer? e
    return Binary64.ofDecimal digits (exponent - places)

/-- A number in floating-point syntax. -/
def float? : List Char → Option Binary64
  | '-' :: rest => (magnitude? rest).map (- ·)
  | '+' :: rest => magnitude? rest
  | text => magnitude? text

end FrameServer.Decimal
