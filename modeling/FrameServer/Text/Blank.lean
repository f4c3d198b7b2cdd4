/-!
# FrameServer.Text.Blank — white space and trimming

The characters with the White_Space property, and removal of leading and
trailing characters of a class.
-/

namespace FrameServer.Text

/-- The characters with the White_Space property. -/
def blanks : List Char :=
  ['\u0009', '\u000a', '\u000b', '\u000c', '\u000d', '\u0020', '\u0085', '\u00a0', '\u1680',
   '\u2000', '\u2001', '\u2002', '\u2003', '\u2004', '\u2005', '\u2006', '\u2007', '\u2008',
   '\u2009', '\u200a', '\u2028', '\u2029', '\u202f', '\u205f', '\u3000']

def isBlank (c : Char) : Bool := blanks.contains c

/-- The text without the longest run of `p` at its end. -/
def dropTrailing (p : Char → Bool) (text : List Char) : List Char :=
  (text.reverse.dropWhile p).reverse

/-- The text without white space at either end. -/
def trim (text : List Char) : List Char := dropTrailing isBlank (text.dropWhile isBlank)

end FrameServer.Text
