import FrameServer.Decimal.Shortest

/-!
# FrameServer.Decimal.Notation — numbers as decimal text

1. **Naturals**: plain, and padded with zeros to a least width.
2. **Shortest text** of a word, always positional; a `Style` fixes what is
   written for a whole number and for a NaN.
3. **Fixed places**: the value rounded to a number of places, a half to even.
-/

namespace FrameServer.Decimal

/-! ## Naturals -/

/-- The decimal digits of a natural number. -/
def natural (n : Nat) : List Char := Nat.toDigits 10 n

/-- At least `width` digits, filled up with leading zeros. -/
def padded (width n : Nat) : List Char :=
  List.replicate (width - (natural n).length) '0' ++ natural n

/-- An integer in decimal, with a minus sign when it is negative. -/
def integer (n : Int) : List Char :=
  if n < 0 then '-' :: natural n.natAbs else natural n.natAbs

/-! ## Shortest text -/

/-- What a format writes where formats differ. -/
structure Style where
  /-- A whole number keeps `.0`. -/
  pointZero : Bool
  nan : String

/-- A decimal without exponent. -/
def positional (d : Scientific) : List Char :=
  let digits := natural d.digits
  if 0 ≤ d.exponent then digits ++ List.replicate d.exponent.toNat '0'
  else
    let places := (-d.exponent).toNat
    let filled := List.replicate (places + 1 - digits.length) '0' ++ digits
    filled.take (filled.length - places) ++ '.' :: filled.drop (filled.length - places)

/-- The digits of a word that is no NaN, without its sign. -/
def unsigned (style : Style) (x : Binary64) : List Char :=
  if x.isInfinite then "inf".toList
  else
    let digits := if x.magnitude = 0 then ['0'] else positional (shortest x)
    if style.pointZero && x.isWhole then digits ++ ['.', '0'] else digits

/-- The shortest text of a word. A NaN has no sign. -/
def text (style : Style) (x : Binary64) : String :=
  if x.isNaN then style.nan
  else String.ofList (if x.negative then '-' :: unsigned style x else unsigned style x)

/-- Numbers in messages: `1`, `-0`, `0.5`, `NaN`, `inf`. -/
def inMessage : Style := ⟨false, "NaN"⟩

/-- Numbers in session metadata: `1.0`, `-0.0`, `0.5`, `nan`, `inf`. -/
def inMetadata : Style := ⟨true, "nan"⟩

/-! ## Fixed places -/

/-- A finite word rounded to `places` places after the point, a half to even. -/
def fixedDigits (places : Nat) (x : Binary64) : List Char :=
  let units := roundDiv (x.magnitude * Nat.pow 10 places) Binary64.one .toEven
  natural (units / Nat.pow 10 places) ++ '.' :: padded places (units % Nat.pow 10 places)

/-- Fixed places with the sign kept, also on zero; a NaN has none. -/
def fixed (places : Nat) (x : Binary64) : List Char :=
  if x.isNaN then "NaN".toList
  else
    let digits := if x.isInfinite then "inf".toList else fixedDigits places x
    if x.negative then '-' :: digits else digits

end FrameServer.Decimal
