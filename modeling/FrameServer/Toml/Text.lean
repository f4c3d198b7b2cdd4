/-!
# FrameServer.Toml.Text — blanks, comments, strings and keys

Readers take what they read off the front of a text and give it back with the
rest of the text; a text that they cannot read gives nothing.

1. **Characters** that may stand in strings and comments.
2. **Blanks and line ends**
3. **Strings** on one line and over several lines.
4. **Keys**, bare or quoted, with dots between them.
-/

namespace FrameServer.Toml

/-- Reads from the front of a text. -/
abbrev Reader (α : Type) := List Char → Option (α × List Char)

/-! ## Characters -/

/-- Any character but a control character; a tab is none. -/
def isPlain (c : Char) : Bool := c = '\t' || (' ' ≤ c && c ≠ '\x7f')

def isBlankChar (c : Char) : Bool := c = ' ' || c = '\t'

/-- A letter, a digit, an underscore or a dash. -/
def isBare (c : Char) : Bool := c.isAlphanum || c = '_' || c = '-'

/-- The value of a hexadecimal digit. -/
def hexValue? (c : Char) : Option Nat :=
  if c.isDigit then some (c.toNat - '0'.toNat)
  else if 'a' ≤ c ∧ c ≤ 'f' then some (c.toNat - 'a'.toNat + 10)
  else if 'A' ≤ c ∧ c ≤ 'F' then some (c.toNat - 'A'.toNat + 10)
  else none

/-- The character whose code is written in hexadecimal digits. -/
def scalar? (digits : List Char) : Option Char := do
  let values ← digits.mapM hexValue?
  let code := values.foldl (16 * · + ·) 0
  if code.isValidChar then some (Char.ofNat code) else none

/-- The character that stands after a backslash for another one. -/
def escape? : Char → Option Char
  | 'b' => some '\x08'
  | 't' => some '\t'
  | 'n' => some '\n'
  | 'f' => some '\x0c'
  | 'r' => some '\r'
  | '"' => some '"'
  | '\\' => some '\\'
  | _ => none

/-! ## Blanks and line ends -/

def skipBlanks (text : List Char) : List Char := text.dropWhile isBlankChar

/-- Takes a line break off. -/
def lineBreak? : List Char → Option (List Char)
  | '\n' :: rest => some rest
  | '\r' :: '\n' :: rest => some rest
  | _ => none

/-- Takes a comment off, if there is one. -/
def skipComment : List Char → List Char
  | '#' :: rest => rest.dropWhile isPlain
  | text => text

/-- Takes the rest of a line off, which may hold nothing but a comment. -/
def lineEnd? (text : List Char) : Option (List Char) :=
  match skipComment (skipBlanks text) with
  | [] => some []
  | rest => lineBreak? rest

/-- Blanks and then a line break. -/
def endsLine (text : List Char) : Bool := (lineBreak? (skipBlanks text)).isSome

/-! ## Strings -/

/-- Puts a character in front of what a reader gives. -/
def before (c : Char) : Option (List Char × List Char) → Option (List Char × List Char)
  | some (text, rest) => some (c :: text, rest)
  | none => none

/-- The rest of a string in double quotes. -/
def basic : Reader (List Char)
  | '"' :: rest => some ([], rest)
  | '\\' :: 'u' :: a :: b :: c :: d :: rest => do before (← scalar? [a, b, c, d]) (basic rest)
  | '\\' :: 'U' :: a :: b :: c :: d :: e :: f :: g :: h :: rest => do
    before (← scalar? [a, b, c, d, e, f, g, h]) (basic rest)
  | '\\' :: c :: rest => do before (← escape? c) (basic rest)
  | c :: rest => if isPlain c then before c (basic rest) else none
  | [] => none

/-- The rest of a string in single quotes. -/
def literal : Reader (List Char)
  | '\'' :: rest => some ([], rest)
  | c :: rest => if isPlain c then before c (literal rest) else none
  | [] => none

/-- After three closing quotes: up to two more belong to the string. -/
def closing (quote : Char) : Reader (List Char)
  | a :: b :: c :: rest =>
    if a = quote ∧ b = quote ∧ c = quote then none
    else if a = quote ∧ b = quote then some ([a, b], c :: rest)
    else if a = quote then some ([a], b :: c :: rest)
    else some ([], a :: b :: c :: rest)
  | rest => some (rest.takeWhile (· = quote), rest.dropWhile (· = quote))

/-- The rest of a string in three double quotes. While `trimming`, after a
backslash at the end of a line, blanks and line breaks are skipped. -/
def multiBasic : (trimming : Bool) → Reader (List Char)
  | true, ' ' :: rest => multiBasic true rest
  | true, '\t' :: rest => multiBasic true rest
  | true, '\n' :: rest => multiBasic true rest
  | true, '\r' :: '\n' :: rest => multiBasic true rest
  | _, '"' :: '"' :: '"' :: rest => closing '"' rest
  | _, '\r' :: '\n' :: rest => before '\n' (multiBasic false rest)
  | _, '\n' :: rest => before '\n' (multiBasic false rest)
  | _, '\\' :: 'u' :: a :: b :: c :: d :: rest => do
    before (← scalar? [a, b, c, d]) (multiBasic false rest)
  | _, '\\' :: 'U' :: a :: b :: c :: d :: e :: f :: g :: h :: rest => do
    before (← scalar? [a, b, c, d, e, f, g, h]) (multiBasic false rest)
  | _, '\\' :: c :: rest =>
    match escape? c with
    | some e => before e (multiBasic false rest)
    | none => if endsLine (c :: rest) then multiBasic true rest else none
  | _, c :: rest => if isPlain c then before c (multiBasic false rest) else none
  | _, [] => none

/-- The rest of a string in three single quotes. -/
def multiLiteral : Reader (List Char)
  | '\'' :: '\'' :: '\'' :: rest => closing '\'' rest
  | '\r' :: '\n' :: rest => before '\n' (multiLiteral rest)
  | '\n' :: rest => before '\n' (multiLiteral rest)
  | c :: rest => if isPlain c then before c (multiLiteral rest) else none
  | [] => none

/-- Takes off a line break, if there is one. -/
def skipBreak (text : List Char) : List Char := (lineBreak? text).getD text

/-- A string of any form. -/
def string? : Reader String := fun text =>
  let chars := match text with
    | '"' :: '"' :: '"' :: rest => multiBasic false (skipBreak rest)
    | '\'' :: '\'' :: '\'' :: rest => multiLiteral (skipBreak rest)
    | '"' :: rest => basic rest
    | '\'' :: rest => literal rest
    | _ => none
  chars.map fun (s, rest) => (String.ofList s, rest)

/-! ## Keys -/

/-- One part of a key. -/
def keyPart? : Reader String
  | '"' :: rest => (basic rest).map fun (s, rest) => (String.ofList s, rest)
  | '\'' :: rest => (literal rest).map fun (s, rest) => (String.ofList s, rest)
  | text =>
    let bare := text.takeWhile isBare
    if bare = [] then none else some (String.ofList bare, text.dropWhile isBare)

/-- Parts of a key with dots between them, at most `limit`, and the blanks around
them. -/
def keyParts? : (limit : Nat) → Reader (List String)
  | 0, _ => none
  | limit + 1, text => do
    let (part, rest) ← keyPart? (skipBlanks text)
    match skipBlanks rest with
    | '.' :: rest =>
      let (parts, rest) ← keyParts? limit rest
      some (part :: parts, rest)
    | rest => some ([part], rest)

/-- How many parts a key may have, and how deep values may be nested. -/
def depthLimit : Nat := 79

def key? : Reader (List String) := keyParts? depthLimit

end FrameServer.Toml
