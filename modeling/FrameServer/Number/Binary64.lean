import FrameServer.Number.Rounding

/-!
# FrameServer.Number.Binary64 — 64-bit floating-point words

A number is kept as its 64-bit word, so that a word read from a stream is the
word written back, whatever NaN payload it carries.

1. **Reading a word**: sign, exponent field and fraction; the magnitude of a
   finite word is a natural number of units of `2 ^ -1074`.
2. **Order**: a word that is no NaN has an integer `scaled`; comparison is
   comparison of these integers, so the two zeros are equal and a NaN is
   neither below nor above anything.
3. **Ratios and integers**: the word nearest to an exact ratio, and the integer
   nearest to a word.
4. **Arithmetic**: sum, product and quotient are those of the machine.
-/

namespace FrameServer

/-- A 64-bit floating-point word. -/
structure Binary64 where
  bits : UInt64
deriving DecidableEq, Repr, Inhabited

namespace Binary64

/-! ## Reading a word -/

/-- What the leading digit of a significand of 53 digits weighs. -/
def leading : Nat := 0x10000000000000

/-- The sign bit is set. -/
def negative (x : Binary64) : Bool := 0x8000000000000000 ≤ x.bits.toNat

def exponentField (x : Binary64) : Nat := x.bits.toNat / leading % 0x800

def fraction (x : Binary64) : Nat := x.bits.toNat % leading

def isNaN (x : Binary64) : Bool := x.exponentField == 2047 && x.fraction != 0

def isInfinite (x : Binary64) : Bool := x.exponentField == 2047 && x.fraction == 0

/-- The significand as an integer below `2 ^ 53`; the leading one is implicit in
the word unless its exponent field is zero. -/
def significand (x : Binary64) : Nat :=
  if x.exponentField = 0 then x.fraction else leading + x.fraction

/-- The last digit of the significand weighs `2 ^ gapLog` units. -/
def gapLog (x : Binary64) : Nat := x.exponentField - 1

/-- How many units of `2 ^ -1074` a finite word is away from zero. An infinite
word has more of them than any finite one. -/
def magnitude (x : Binary64) : Nat := x.significand * Nat.pow 2 x.gapLog

/-- The value one in units of `2 ^ -1074`. -/
def one : Nat := Nat.pow 2 1074

/-- The signed number of units. -/
def scaled (x : Binary64) : Int :=
  if x.negative then -(x.magnitude : Int) else x.magnitude

/-- The number is a whole one. -/
def isWhole (x : Binary64) : Bool := x.magnitude % one == 0

/-! ## Order -/

/-- Strictly below, as numbers; false when either side is a NaN. -/
def lt (x y : Binary64) : Bool :=
  !x.isNaN && !y.isNaN && decide (x.scaled < y.scaled)

/-- At most, as numbers; false when either side is a NaN. -/
def le (x y : Binary64) : Bool :=
  !x.isNaN && !y.isNaN && decide (x.scaled ≤ y.scaled)

/-- The larger of two numbers; a NaN counts as absent. -/
def larger (x y : Binary64) : Binary64 :=
  if x.isNaN then y else if x.lt y then y else x

/-- The smaller of two numbers; a NaN counts as absent. -/
def smaller (x y : Binary64) : Binary64 :=
  if x.isNaN then y else if y.lt x then y else x

/-! ## Ratios and integers -/

def infinity : Binary64 := ⟨0x7FF0000000000000⟩

def nan : Binary64 := ⟨0x7FF8000000000000⟩

instance : Neg Binary64 := ⟨fun x => ⟨x.bits ^^^ 0x8000000000000000⟩⟩

/-- The largest `e` with `2 ^ e ≤ num / den`. -/
def floorLog2 (num den : Nat) : Int :=
  let guess : Int := (num.log2 : Int) - den.log2
  if den * Nat.pow 2 guess.toNat ≤ num * Nat.pow 2 (-guess).toNat then guess else guess - 1

/-- The word nearest to `num / den`, a tie to the even significand. The
significand is rounded to 53 binary digits, or to a whole number of units where
that is coarser; a carry moves into the exponent field by itself. -/
def ofRatio (num den : Nat) : Binary64 :=
  if num = 0 then ⟨0⟩
  else
    let gap := max (floorLog2 num den - 52) (-1074)
    let significand := roundDiv (num * Nat.pow 2 (-gap).toNat) (den * Nat.pow 2 gap.toNat) .toEven
    let word := (gap + 1074).toNat * leading + significand
    ⟨UInt64.ofNat (min word infinity.bits.toNat)⟩

/-- The word nearest to a natural number. -/
def ofNat (n : Nat) : Binary64 := ofRatio n 1

/-- The word nearest to an integer. -/
def ofInt (n : Int) : Binary64 := if n < 0 then -(ofNat n.natAbs) else ofNat n.natAbs

/-- The word nearest to `digits * 10 ^ exponent`. Every decimal from `10 ^ 310`
up is infinite and every one below `10 ^ -330` is zero, so the powers that are
computed stay short. -/
def ofDecimal (digits : Nat) (exponent : Int) : Binary64 :=
  let length : Int := (Nat.toDigits 10 digits).length
  if digits = 0 || length + exponent < -330 then ⟨0⟩
  else if 310 < length + exponent then infinity
  else ofRatio (digits * Nat.pow 10 exponent.toNat) (Nat.pow 10 (-exponent).toNat)

instance (n : Nat) : OfNat Binary64 n := ⟨ofNat n⟩

instance : OfScientific Binary64 :=
  ⟨fun digits below exponent => ofDecimal digits (if below then -(exponent : Int) else exponent)⟩

/-- The whole part, held within `0` and `limit`; a NaN gives zero. -/
def truncateWithin (limit : Nat) (x : Binary64) : Nat :=
  if x.isNaN || x.negative then 0 else min (x.magnitude / one) limit

/-- The nearest integer, a half away from zero; a NaN gives zero. -/
def nearestInt (x : Binary64) : Int :=
  if x.isNaN then 0
  else
    let m := roundDiv x.magnitude one .awayFromZero
    if x.negative then -(m : Int) else m

/-! ## Arithmetic -/

def toFloat (x : Binary64) : Float := Float.ofBits x.bits

def ofFloat (x : Float) : Binary64 := ⟨x.toBits⟩

instance : Add Binary64 := ⟨fun x y => ofFloat (x.toFloat + y.toFloat)⟩

instance : Mul Binary64 := ⟨fun x y => ofFloat (x.toFloat * y.toFloat)⟩

instance : Div Binary64 := ⟨fun x y => ofFloat (x.toFloat / y.toFloat)⟩

end Binary64

end FrameServer
