/-!
# FrameServer.Number.Rounding — rounded quotients

`roundDiv num den tie` is the integer nearest to `num / den`; when two integers
are equally near, `tie` decides.
-/

namespace FrameServer

/-- Which of two equally near integers a rounded quotient takes. -/
inductive Tie where
  | toEven
  | awayFromZero
deriving DecidableEq, Repr

/-- The integer nearest to `num / den`. -/
def roundDiv (num den : Nat) (tie : Tie) : Nat :=
  let q := num / den
  let twice := 2 * (num % den)
  if twice < den then q
  else if den < twice then q + 1
  else match tie with
    | .toEven => q + q % 2
    | .awayFromZero => q + 1

end FrameServer
