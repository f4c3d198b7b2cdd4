/-!
# FrameServer.Text.Utf8 — text from bytes that may not be UTF-8

Bytes are read one at a time. A lead byte announces how many bytes follow and in
which range each of them lies; a byte outside its range ends the character, and
what was read of it becomes one replacement character. The byte that did not fit
is read again as a lead byte.
-/

namespace FrameServer.Text

/-- An unfinished character: the bits read so far and the ranges of the bytes
still to come. -/
structure Unfinished where
  bits : Nat
  expected : List (UInt8 × UInt8)
deriving DecidableEq, Repr

/-- What stands for bytes that are no character. -/
def replacement : Char := '\ufffd'

/-- The range of a byte that follows without further restriction. -/
def tail : UInt8 × UInt8 := (0x80, 0xBF)

/-- The character that a lead byte begins: surrogates, values above U+10FFFF and
forms longer than needed are ruled out by the range of the second byte. -/
def leadByte? (b : UInt8) : Option Unfinished :=
  if 0xC2 ≤ b ∧ b ≤ 0xDF then some ⟨b.toNat % 32, [tail]⟩
  else if b = 0xE0 then some ⟨0, [(0xA0, 0xBF), tail]⟩
  else if b = 0xED then some ⟨13, [(0x80, 0x9F), tail]⟩
  else if 0xE1 ≤ b ∧ b ≤ 0xEF then some ⟨b.toNat % 16, [tail, tail]⟩
  else if b = 0xF0 then some ⟨0, [(0x90, 0xBF), tail, tail]⟩
  else if 0xF1 ≤ b ∧ b ≤ 0xF3 then some ⟨b.toNat % 8, [tail, tail, tail]⟩
  else if b = 0xF4 then some ⟨4, [(0x80, 0x8F), tail, tail]⟩
  else none

/-- Reads a byte between characters. -/
def beginWith (b : UInt8) : List Char × Option Unfinished :=
  if b < 0x80 then ([Char.ofNat b.toNat], none)
  else match leadByte? b with
    | some u => ([], some u)
    | none => ([replacement], none)

/-- Reads one byte: the characters it completes and what stays unfinished. -/
def readByte (unfinished : Option Unfinished) (b : UInt8) : List Char × Option Unfinished :=
  match unfinished with
  | none => beginWith b
  | some ⟨_, []⟩ => beginWith b
  | some ⟨bits, (low, high) :: more⟩ =>
    if low ≤ b ∧ b ≤ high then
      let bits := 64 * bits + b.toNat % 64
      if more = [] then ([Char.ofNat bits], none) else ([], some ⟨bits, more⟩)
    else
      let (chars, next) := beginWith b
      (replacement :: chars, next)

/-- Reads the bytes from where a character may be unfinished. -/
def charactersFrom : Option Unfinished → List UInt8 → List Char
  | none, [] => []
  | some _, [] => [replacement]
  | unfinished, b :: rest =>
    let (chars, next) := readByte unfinished b
    chars ++ charactersFrom next rest

/-- The text of a byte string, each longest piece that cannot be continued
replaced by U+FFFD. -/
def ofBytes (bytes : List UInt8) : List Char := charactersFrom none bytes

end FrameServer.Text
