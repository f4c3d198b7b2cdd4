import FrameServer.Toml.Moment
import FrameServer.Toml.Number

/-!
# FrameServer.Toml.Reader — values

Arrays may go over several lines and end with a comma; tables between braces stay
on one line and do not. Lists of values are read with a bound on their length,
which is that of the text that is left.
-/

namespace FrameServer.Toml

/-- Takes off blanks, comments and line breaks, in at most `bound` pieces. -/
def skipLines : (bound : Nat) → List Char → List Char
  | 0, text => text
  | bound + 1, text =>
    let text := skipComment (skipBlanks text)
    match lineBreak? text with
    | some rest => skipLines bound rest
    | none => text

/-- Takes off blanks, comments and line breaks. -/
def skipSpace (text : List Char) : List Char := skipLines text.length text

/-- The items of an array up to its closing bracket. -/
def arrayItems (item : Reader Value) : (bound : Nat) → Reader (List Value)
  | 0, _ => none
  | bound + 1, text =>
    match skipSpace text with
    | ']' :: rest => some ([], rest)
    | text => do
      let (v, rest) ← item text
      match skipSpace rest with
      | ']' :: rest => some ([v], rest)
      | ',' :: rest =>
        let (items, rest) ← arrayItems item bound rest
        some (v :: items, rest)
      | _ => none

/-- Changes the entries that a path of dotted keys leads to within braces,
creating the tables in between. Only tables that dotted keys created can be added
to. -/
def withinBraces (f : TableKind → Entries → Option Entries) :
    List String → TableKind → Entries → Option Entries
  | [], kind, entries => f kind entries
  | key :: path, _, entries =>
    match entries.lookup key with
    | none => do
      let inner ← withinBraces f path .dotted []
      some (entries ++ [(key, .table .dotted inner)])
    | some (.table .dotted inner) => do
      let inner ← withinBraces f path .dotted inner
      some (entries.replace key (.table .dotted inner))
    | some _ => none

/-- Adds `path = v` to a table; `descend` leads to the table of the last key. The
last key is new there, and a table is added to by dotted keys only if dotted keys
created it. -/
def assign (descend : (TableKind → Entries → Option Entries) →
      List String → TableKind → Entries → Option Entries)
    (path : List String) (v : Value) (kind : TableKind) (entries : Entries) : Option Entries :=
  let parents := path.dropLast
  let put (kind : TableKind) (entries : Entries) : Option Entries :=
    if (kind == .dotted) == parents.isEmpty then none
    else (path.getLast?).bind fun key => Entries.add? key v entries
  descend put parents kind entries

/-- A key, an equals sign and a value. -/
def pair? (value : Reader Value) : Reader (List String × Value) := fun text => do
  let (path, rest) ← key? text
  let (v, rest) ← value (skipBlanks (← mark? '=' rest))
  some ((path, v), rest)

/-- The pairs of a table in braces, added to `entries`, up to its closing brace. -/
def bracePairs (value : Reader Value) : (bound : Nat) → Entries → Reader Entries
  | 0, _, _ => none
  | bound + 1, entries, text => do
    let ((path, v), rest) ← pair? value text
    let entries ← assign withinBraces path v .inline entries
    match skipBlanks rest with
    | '}' :: rest => some (entries, rest)
    | ',' :: rest => bracePairs value bound entries rest
    | _ => none

/-- The entries of a table in braces. -/
def braceEntries (value : Reader Value) : Reader Entries := fun text =>
  match skipBlanks text with
  | '}' :: rest => some ([], rest)
  | text => bracePairs value text.length [] text

/-- Values that are nested at most `depth` deep. -/
def valueWithin : (depth : Nat) → Reader Value
  | 0, text => scalarValue? text
  | depth + 1, text =>
    match text with
    | '[' :: rest =>
      (arrayItems (valueWithin depth) (rest.length + 1) rest).map fun (items, rest) =>
        (.array items, rest)
    | '{' :: rest =>
      (braceEntries (valueWithin depth) rest).map fun (entries, rest) =>
        (.table .inline entries, rest)
    | text => scalarValue? text
where
  /-- A value that holds no others. -/
  scalarValue? : Reader Value := fun text =>
    match text with
    | '"' :: _ => (string? text).map fun (s, rest) => (.string s, rest)
    | '\'' :: _ => (string? text).map fun (s, rest) => (.string s, rest)
    | 't' :: 'r' :: 'u' :: 'e' :: rest => some (.boolean true, rest)
    | 'f' :: 'a' :: 'l' :: 's' :: 'e' :: rest => some (.boolean false, rest)
    | _ =>
      match moment? text with
      | some (m, rest) => some (.moment m, rest)
      | none => number? text

def value? : Reader Value := valueWithin depthLimit

end FrameServer.Toml
