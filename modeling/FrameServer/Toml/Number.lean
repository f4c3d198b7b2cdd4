import FrameServer.Decimal.Literal
import FrameServer.Number.Width
import FrameServer.Toml.Text
import FrameServer.Toml.Value

/-!
# FrameServer.Toml.Number — numbers

Integers are decimal with an optional sign, or hexadecimal, octal or binary
without one; they have 64 bits. Numbers with a fraction or an exponent are
floating point, and so are `inf` and `nan`. Underscores may stand between digits,
and zeros may not lead.
-/

namespace FrameServer.Toml

/-- Further digits, with underscores between digits left out. -/
def moreDigits (isDigit : Char → Bool) : Reader (List Char)
  | '_' :: c :: rest => if isDigit c then before c (moreDigits isDigit rest) else none
  | c :: rest => if isDigit c then before c (moreDigits isDigit rest) else
    if c = '_' then none else some ([], c :: rest)
  | [] => some ([], [])

/-- One or more digits. -/
def digits? (isDigit : Char → Bool) : Reader (List Char)
  | c :: rest => if isDigit c then before c (moreDigits isDigit rest) else none
  | [] => none

/-- The digits of a decimal integer, in which no zero leads. -/
def decimal? : Reader (List Char)
  | '0' :: rest => some (['0'], rest)
  | text => digits? Char.isDigit text

/-- Takes off a sign. -/
def sign : List Char → List Char × List Char
  | '+' :: rest => (['+'], rest)
  | '-' :: rest => (['-'], rest)
  | text => ([], text)

/-- An exponent, if there is one. -/
def exponent? : Reader (List Char)
  | e :: rest =>
    if e = 'e' ∨ e = 'E' then do
      let (sign, rest) := sign rest
      let (digits, rest) ← digits? Char.isDigit rest
      some ('e' :: sign ++ digits, rest)
    else some ([], e :: rest)
  | [] => some ([], [])

/-- A fraction, if there is one. -/
def fraction? : Reader (List Char)
  | '.' :: rest => do
    let (digits, rest) ← digits? Char.isDigit rest
    some ('.' :: digits, rest)
  | text => some ([], text)

/-- An integer of 64 bits. -/
def integerValue? (n : Int) : Option Value := if fitsInt64 n then some (.integer n) else none

/-- A number in floating-point syntax that is not too large. -/
def floatValue? (text : List Char) : Option Value := do
  let x ← Decimal.float? text
  if x = Binary64.infinity then none else some (.float x)

/-- An integer in a base up to sixteen, without sign. -/
def based? (base : Nat) : Reader Value := fun text => do
  let inBase (c : Char) : Bool := (hexValue? c).any (· < base)
  let (digits, rest) ← digits? inBase text
  let n := (digits.filterMap hexValue?).foldl (base * · + ·) 0
  some (← integerValue? n, rest)

/-- A decimal integer or a number in floating-point syntax. -/
def decimalNumber? : Reader Value := fun text => do
  let (sign, rest) := sign text
  match rest with
  | 'i' :: 'n' :: 'f' :: rest =>
    some (.float (if sign = ['-'] then -Binary64.infinity else Binary64.infinity), rest)
  | 'n' :: 'a' :: 'n' :: rest => some (.float Binary64.nan, rest)
  | _ =>
    let (whole, rest) ← decimal? rest
    let (fraction, rest) ← fraction? rest
    let (exponent, rest) ← exponent? rest
    if fraction = [] ∧ exponent = [] then
      some (← integerValue? (← Decimal.integer? (sign ++ whole)), rest)
    else some (← floatValue? (sign ++ whole ++ fraction ++ exponent), rest)

def number? : Reader Value
  | '0' :: 'x' :: rest => based? 16 rest
  | '0' :: 'o' :: rest => based? 8 rest
  | '0' :: 'b' :: rest => based? 2 rest
  | text => decimalNumber? text

end FrameServer.Toml
