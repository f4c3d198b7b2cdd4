/-!
# FrameServer.Frame.Word — 64-bit words as bytes

A word is written as eight bytes, the least significant first.
-/

namespace FrameServer

/-- A string of bytes. -/
abbrev Bytes := List UInt8

namespace Word

/-- The `count` lowest digits of a number in base 256, lowest first. -/
def digits : Nat → Nat → Bytes
  | 0, _ => []
  | count + 1, n => UInt8.ofNat n :: digits count (n / 256)

/-- The number with the given digits in base 256, lowest first. -/
def value : Bytes → Nat
  | [] => 0
  | b :: rest => b.toNat + 256 * value rest

def toBytes (w : UInt64) : Bytes := digits 8 w.toNat

/-- The word in the first eight bytes. -/
def ofBytes (bytes : Bytes) : UInt64 := UInt64.ofNat (value (bytes.take 8))

/-- The first `count` words of a byte string. -/
def readMany : Nat → Bytes → List UInt64
  | 0, _ => []
  | count + 1, bytes => ofBytes bytes :: readMany count (bytes.drop 8)

end Word

end FrameServer
