/-!
# FrameServer.Number.Width — integers that fit a word

Integers with a sign in two's complement, from the least to the greatest of their
width.
-/

namespace FrameServer

/-- The integer fits 64 bits. -/
def fitsInt64 (n : Int) : Bool := Int64.minValue.toInt ≤ n && n ≤ Int64.maxValue.toInt

/-- The integer as a word of 32 bits, if it fits one. -/
def toInt32? (n : Int) : Option Int32 :=
  if Int32.minValue.toInt ≤ n ∧ n ≤ Int32.maxValue.toInt then some (Int32.ofInt n) else none

end FrameServer
