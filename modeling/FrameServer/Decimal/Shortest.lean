import FrameServer.Number.Binary64

/-!
# FrameServer.Decimal.Shortest — the fewest digits that read back

The reals that round to one word form an interval around it. `shortest` finds
the decimal in that interval with the fewest digits, and among those the one
nearest to the word; of two equally near it takes the larger.

Lengths are measured in quarters of a unit, so that half a gap and the narrower
gap below a power of two are both whole.
-/

namespace FrameServer.Decimal

/-- The number `digits * 10 ^ exponent`. -/
structure Scientific where
  digits : Nat
  exponent : Int
deriving DecidableEq, Repr, Inhabited

/-- How many decimal digits a natural number has; zero has one. -/
def digitCount (n : Nat) : Nat := (Nat.toDigits 10 n).length

/-- The same number without zeros at the end of its digits. -/
def Scientific.trimmed (digits : Nat) (exponent : Int) : Scientific :=
  if h : digits ≠ 0 ∧ digits % 10 = 0 then trimmed (digits / 10) (exponent + 1)
  else ⟨digits, exponent⟩
termination_by digits
decreasing_by omega

/-! ## The rounding interval -/

/-- An interval of positions in quarters of a unit. -/
structure Interval where
  low : Nat
  high : Nat
  /-- The ends belong to it. -/
  closed : Bool

/-- The positions that round to `x`. A tie goes to the even significand, so the
ends belong to the interval when the significand is even. The gap below a power
of two is half as wide as the one above. -/
def roundingInterval (x : Binary64) : Interval :=
  let gap := Nat.pow 2 x.gapLog
  let below := if x.fraction = 0 ∧ 1 < x.exponentField then gap else 2 * gap
  ⟨4 * x.magnitude - below, 4 * x.magnitude + 2 * gap, x.significand % 2 == 0⟩

/-- The position `num / den` lies in the interval. -/
def Interval.holds (i : Interval) (num den : Nat) : Bool :=
  if i.closed then decide (i.low * den ≤ num ∧ num ≤ i.high * den)
  else decide (i.low * den < num ∧ num < i.high * den)

/-! ## Decimal grids -/

/-- The exponent of the first digit of a positive word. -/
def leadingExponent (x : Binary64) : Int :=
  if Binary64.one ≤ x.magnitude then (digitCount (x.magnitude / Binary64.one) : Int) - 1
  else -(digitCount ((Binary64.one - 1) / x.magnitude) : Int)

/-- The multiple of `10 ^ exponent` nearest to `x` among its two neighbours that
lie in the rounding interval, if one does. -/
def nearestOnGrid (x : Binary64) (exponent : Int) : Option Scientific :=
  let step := 4 * Binary64.one * Nat.pow 10 exponent.toNat
  let scale := Nat.pow 10 (-exponent).toNat
  let position := 4 * x.magnitude * scale
  let below := position / step
  let interval := roundingInterval x
  let nearer := if 2 * (position % step) < step then below else below + 1
  match interval.holds (below * step) scale, interval.holds ((below + 1) * step) scale with
  | true, true => some ⟨nearer, exponent⟩
  | true, false => some ⟨below, exponent⟩
  | false, true => some ⟨below + 1, exponent⟩
  | false, false => none

/-- The shortest decimal of a positive finite word. Seventeen digits always
suffice. -/
def shortest (x : Binary64) : Scientific :=
  let found := (List.range 17).findSome? fun (n : Nat) => nearestOnGrid x (leadingExponent x - n)
  match found with
  | some d => Scientific.trimmed d.digits d.exponent
  | none => ⟨0, 0⟩

end FrameServer.Decimal
